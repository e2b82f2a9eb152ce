import Chip8.Machine.Basic
import Chip8.Proofs.AssemblyText
import Chip8.Proofs.PictureText

/-!
# Listings in base 16 read back

Words are listed between bars, each as long as it has to be; the summary of a machine lists its registers so, after the
numbers of its two addresses; and a memory is dumped in lines of pairs of digits. Nothing is lost in any of them: each
has a reader.

* `mapM_map_eq_some` — a list is read back where its elements are.
* `Numeral.nat?` — a reader of numerals that refuses what is none. `Numeral.nat?_leftpad_lower` — zeros in front of a
  numeral do no harm.
* `Numeral.barParts_barred`, `Numeral.readBarred?_barred` — the parts of a listing, and the words read off them.
* `Machine.readSummary?_summary` — the addresses and the registers of a summary.
* `Memory.textLines_dump`, `Memory.charAt?_dump` — the lines of a dump, and the two digits of each byte.
  `Memory.ofDump?_dump` — the memory that was dumped.
* `listings_lossless` — **all of this together**.
-/

set_option autoImplicit false

namespace Chip8

/-- A list whose elements were all written is read back, if each of them is. -/
theorem mapM_map_eq_some {α β : Type} {write : α → β} {read : β → Option α} (h : ∀ a, read (write a) = some a)
    (l : List α) : (l.map write).mapM read = some l := by
  have hread : read ∘ write = fun a => pure a := funext h
  rw [List.mapM_map, hread, List.mapM_pure, List.map_id']
  rfl

/-! ## Words between bars -/

namespace Numeral

/-- The digits of base 16, in lower case. -/
def lowerDigits : List Char :=
  ['0', '1', '2', '3', '4', '5', '6', '7', '8', '9', 'a', 'b', 'c', 'd', 'e', 'f']

theorem digitChar_mem_lowerDigits {d : Nat} (h : d < 16) : Nat.digitChar d ∈ lowerDigits := by
  have all : ∀ i : Fin 16, Nat.digitChar i ∈ lowerDigits := by decide
  exact all ⟨d, h⟩

/-- What holds of all digits holds of every character of a numeral that is filled up with zeros. -/
theorem of_mem_leftpad_lower {P : Char → Prop} (hdigit : ∀ d < 16, P (Nat.digitChar d)) {width n : Nat} {c : Char}
    (h : c ∈ (lower n).leftpad width '0') : P c := by
  rcases List.mem_append.1 h with h | h
  · rw [List.eq_of_mem_replicate h]
    exact hdigit 0 (by decide)
  · exact of_mem_toDigits hdigit h

theorem mem_lowerDigits_of_mem_leftpad {width n : Nat} {c : Char} (h : c ∈ (lower n).leftpad width '0') :
    c ∈ lowerDigits :=
  of_mem_leftpad_lower (fun _ => digitChar_mem_lowerDigits) h

theorem value_lower (n : Nat) : value (lower n) = n := by
  have hshape : ∀ d < 16, digitValue? (id (Nat.digitChar d)) = some d := fun _ => digitValue?_digitChar
  have hvalue := value_map_toDigits hshape n
  rwa [List.map_id] at hvalue

/-- The number that digits of base 16 write; without any digit, or with a character that is none, there is no number. -/
def nat? (digits : List Char) : Option Nat :=
  if !digits.isEmpty && digits.all fun c => (digitValue? c).isSome then some (value digits) else none

theorem nat?_leftpad_lower (width n : Nat) : nat? ((lower n).leftpad width '0') = some n := by
  have hempty : ((lower n).leftpad width '0').isEmpty = false :=
    List.isEmpty_eq_false_iff.2 (List.append_ne_nil_of_right_ne_nil _ Nat.toDigits_ne_nil)
  have hdigits : ((lower n).leftpad width '0').all (fun c => (digitValue? c).isSome) = true := by
    refine List.all_eq_true.2 fun c hc => ?_
    refine of_mem_leftpad_lower (P := fun c => (digitValue? c).isSome) (fun d hd => ?_) hc
    rw [digitValue?_digitChar hd]
    rfl
  rw [nat?, hempty, hdigits, value_leftpad, value_lower]
  rfl

/-- The parts of a text between bars; the empty text has none. -/
def barParts (text : String) : List (List Char) := if text = "" then [] else text.toList.splitOn '|'

/-- The numbers that a text lists between bars, if each of its parts is one. -/
def readBarred? (text : String) : Option (List Nat) := (barParts text).mapM nat?

theorem toList_barred (ws : List Nat) :
    (barred ws).toList = ['|'].intercalate (ws.map fun w => (lower w).leftpad 2 '0') := by
  have hsep : "|".toList = ['|'] := rfl
  simp [barred, String.toList_intercalate, hsep, Function.comp_def]

/-- The parts of a listing are the numerals of its words. -/
theorem barParts_barred (ws : List Nat) : barParts (barred ws) = ws.map fun w => (lower w).leftpad 2 '0' := by
  cases ws with
  | nil => rfl
  | cons w ws =>
    have hbar : ∀ l ∈ (w :: ws).map fun w => (lower w).leftpad 2 '0', '|' ∉ l := by
      rw [List.forall_mem_map]
      exact fun v _ hmem => absurd (mem_lowerDigits_of_mem_leftpad hmem) (by decide)
    have hsplit : (barred (w :: ws)).toList.splitOn '|' = (w :: ws).map fun w => (lower w).leftpad 2 '0' := by
      rw [toList_barred]
      exact List.splitOn_intercalate '|' hbar (by simp)
    -- The empty text would have one part without digits, and no numeral is without digits.
    have hne : barred (w :: ws) ≠ "" := by
      intro hempty
      rw [hempty] at hsplit
      have hpart : [] = (lower w).leftpad 2 '0' := List.head_eq_of_cons_eq hsplit
      have hnumber := nat?_leftpad_lower 2 w
      rw [← hpart] at hnumber
      cases hnumber
    rw [barParts, if_neg hne, hsplit]

/-- **A listing is read as the words it lists.** -/
theorem readBarred?_barred (ws : List Nat) : readBarred? (barred ws) = some ws := by
  rw [readBarred?, barParts_barred]
  exact mapM_map_eq_some (nat?_leftpad_lower 2) ws

end Numeral

/-! ## The summary of a machine -/

theorem IsWord.append {s t : String} (hs : IsWord s) (ht : IsWord t) : IsWord (s ++ t) := by
  simp only [IsWord, String.toList_append, List.mem_append, not_or]
  exact ⟨⟨hs.1, ht.1⟩, hs.2, ht.2⟩

theorem isWord_ofList {l : List Char} (h : ∀ c ∈ l, c ∈ Numeral.lowerDigits) : IsWord (String.ofList l) := by
  rw [IsWord, String.toList_ofList]
  exact ⟨fun hmem => absurd (h _ hmem) (by decide), fun hmem => absurd (h _ hmem) (by decide)⟩

theorem isWord_lower (n : Nat) : IsWord (String.ofList (Numeral.lower n)) :=
  isWord_ofList fun _ => Numeral.of_mem_toDigits fun _ => Numeral.digitChar_mem_lowerDigits

theorem isWord_toString (n : Nat) : IsWord (toString n) := by
  have hdigit : ∀ c ∈ (toString n).toList, c.isDigit := by
    rw [Nat.toString_eq_ofList_toDigits, String.toList_ofList]
    exact fun c hc => Nat.isDigit_of_mem_toDigits (by decide) (by decide) hc
  exact ⟨fun hmem => absurd (hdigit _ hmem) (by decide), fun hmem => absurd (hdigit _ hmem) (by decide)⟩

/-- A listing is one word of a line. -/
theorem isWord_barred (ws : List Nat) : IsWord (Numeral.barred ws) := by
  have hnumeral : ∀ w, IsWord (String.ofList ((Numeral.lower w).leftpad 2 '0')) := fun w =>
    isWord_ofList fun _ => Numeral.mem_lowerDigits_of_mem_leftpad
  induction ws with
  | nil => decide
  | cons w ws ih =>
    -- A bar stands only where another word follows.
    cases ws with
    | nil => exact hnumeral w
    | cons v ws =>
      rw [Numeral.barred, List.map_cons, List.map_cons, String.intercalate_cons_cons]
      exact ((hnumeral w).append (by decide)).append ih

namespace Machine

/-- The two addresses and the registers that a summary tells: its second word after a bracket, its fifth, and the
listing that is its last. -/
def readSummary? (text : String) : Option (Nat × Nat × List Nat) :=
  match words text with
  | [_, '(' :: pc, _, _, index, _, listing] =>
    (Numeral.readBarred? (String.ofList listing)).map fun registers =>
      (Nat.ofDigitChars 10 pc 0, Nat.ofDigitChars 10 index 0, registers)
  | _ => none

theorem words_summary (m : Machine) :
    words m.summary =
      ["PC:".toList, '(' :: (toString m.pc).toList, "'0x".toList ++ Numeral.lower m.pc ++ "')".toList, "I:".toList,
        (toString m.index).toList, "regs:".toList,
        (Numeral.barred (m.registers.toList.map UInt8.toNat)).toList] := by
  have hcommas : words m.summary =
      words ("PC:" ++ " " ++ (("(" ++ toString m.pc) ++ " " ++
        (("'0x" ++ String.ofList (Numeral.lower m.pc) ++ "')") ++ " " ++ ("I:" ++ " " ++ (toString m.index ++ " " ++
          ("regs:" ++ " " ++ Numeral.barred (m.registers.toList.map UInt8.toNat))))))) := by
    simp [words, summary]
  have hpc : IsWord ("(" ++ toString m.pc) := IsWord.append (by decide) (isWord_toString m.pc)
  have hmarked : IsWord ("'0x" ++ String.ofList (Numeral.lower m.pc) ++ "')") :=
    (IsWord.append (by decide) (isWord_lower m.pc)).append (by decide)
  have hlabel : IsWord "PC:" ∧ IsWord "I:" ∧ IsWord "regs:" := by decide
  rw [hcommas, hlabel.1.words_append, hpc.words_append, hmarked.words_append, hlabel.2.1.words_append,
    (isWord_toString m.index).words_append, hlabel.2.2.words_append, (isWord_barred _).words_eq]
  simp

/-- **A summary is read as the addresses and registers it tells.** -/
theorem readSummary?_summary (m : Machine) :
    readSummary? m.summary = some (m.pc, m.index, m.registers.toList.map UInt8.toNat) := by
  have hdecimal : ∀ n : Nat, Nat.ofDigitChars 10 (toString n).toList 0 = n := by
    intro n
    rw [Nat.toString_eq_ofList_toDigits, String.toList_ofList, Nat.ofDigitChars_ten_toDigits]
  simp only [readSummary?, words_summary, String.ofList_toList, Numeral.readBarred?_barred, hdecimal, Option.map_some]

theorem summary_eq_iff (m n : Machine) :
    m.summary = n.summary ↔ m.pc = n.pc ∧ m.index = n.index ∧ m.registers = n.registers := by
  constructor
  · intro h
    have hread := readSummary?_summary m
    rw [h, readSummary?_summary, Option.some.injEq, Prod.mk.injEq, Prod.mk.injEq] at hread
    obtain ⟨hpc, hindex, hregisters⟩ := hread
    have hbytes := (List.map_inj_right fun _ _ => UInt8.toNat_inj.1).1 hregisters
    exact ⟨hpc.symm, hindex.symm, (Vector.toList_inj.1 hbytes).symm⟩
  · rintro ⟨hpc, hindex, hregisters⟩
    rw [summary, summary, hpc, hindex, hregisters]

end Machine

/-! ## The dump of a memory -/

namespace Numeral

theorem mem_lowerDigits_of_mem_bytes {bs : List UInt8} {c : Char} (h : c ∈ bytes bs) : c ∈ lowerDigits := by
  obtain ⟨b, -, hc⟩ := List.mem_flatMap.1 h
  have hb := b.toNat_lt
  simp only [byte, List.mem_cons, List.not_mem_nil, or_false] at hc
  rcases hc with rfl | rfl
  · exact digitChar_mem_lowerDigits (by omega)
  · exact digitChar_mem_lowerDigits (by omega)

/-- The two digits of a byte stand at twice its place and after it. -/
theorem getElem?_bytes (bs : List UInt8) (j : Nat) :
    (bytes bs)[2 * j]? = (bs[j]?).map (fun b => Nat.digitChar (b.toNat / 16)) ∧
      (bytes bs)[2 * j + 1]? = (bs[j]?).map (fun b => Nat.digitChar (b.toNat % 16)) := by
  induction bs generalizing j with
  | nil => simp
  | cons b bs ih =>
    cases j with
    | zero => exact ⟨rfl, rfl⟩
    | succ j => exact ih j

end Numeral

namespace Memory

/-- The rows of a dump. -/
def rows (m : Memory) : List (List UInt8) := (List.range 128).map fun k => m.block (32 * k) 32

theorem getElem?_rows (m : Memory) {k : Nat} (hk : k < 128) : m.rows[k]? = some (m.block (32 * k) 32) := by
  rw [rows, List.getElem?_map, List.getElem?_range hk, Option.map_some]

/-- **The lines of a dump are the rows**, digit by digit. -/
theorem textLines_dump (m : Memory) : textLines m.dump = m.rows.map Numeral.bytes := by
  have hdump : m.dump = "\n".intercalate ((m.rows.map Numeral.bytes).map String.ofList) := by
    simp only [dump, rows, List.map_map, Function.comp_def]
  have hbreak : ∀ l ∈ m.rows.map Numeral.bytes, '\n' ∉ l := by
    rw [List.forall_mem_map]
    exact fun _ _ hmem => absurd (Numeral.mem_lowerDigits_of_mem_bytes hmem) (by decide)
  rw [hdump]
  exact textLines_intercalate hbreak (by simp [rows])

/-- Each byte has its two digits in the line of its row. -/
theorem charAt?_dump (m : Memory) {k j : Nat} (hk : k < 128) (hj : j < 32) :
    charAt? m.dump (2 * j) k = some (Nat.digitChar ((m.byteAt (32 * k + j)).toNat / 16)) ∧
      charAt? m.dump (2 * j + 1) k = some (Nat.digitChar ((m.byteAt (32 * k + j)).toNat % 16)) := by
  have hline : (textLines m.dump)[k]? = some (Numeral.bytes (m.block (32 * k) 32)) := by
    rw [textLines_dump, List.getElem?_map, m.getElem?_rows hk, Option.map_some]
  obtain ⟨hhigh, hlow⟩ := Numeral.getElem?_bytes (m.block (32 * k) 32) j
  rw [m.getElem?_block _ hj, Option.map_some] at hhigh hlow
  rw [charAt?, charAt?, hline]
  exact ⟨hhigh, hlow⟩

/-- The memory of 128 rows of 32 bytes. -/
def ofRows? (rows : List (List UInt8)) : Option Memory :=
  if rows.length = 128 ∧ ∀ row ∈ rows, row.length = 32 then
    some ⟨Vector.ofFn fun a => ((rows[a.val / 32]?).bind fun row => row[a.val % 32]?).getD 0⟩
  else none

/-- The memory that a text dumps, if it dumps one. -/
def ofDump? (text : String) : Option Memory := ((textLines text).mapM Numeral.readBytes?).bind ofRows?

theorem length_rows (m : Memory) : m.rows.length = 128 ∧ ∀ row ∈ m.rows, row.length = 32 := by
  refine ⟨by rw [rows, List.length_map, List.length_range], ?_⟩
  rw [rows, List.forall_mem_map]
  exact fun k _ => m.length_block (32 * k) 32

theorem ofRows?_rows (m : Memory) : ofRows? m.rows = some m := by
  rw [ofRows?, if_pos m.length_rows]
  refine congrArg some (ext_byteAt fun a ha => ?_)
  have hrow := m.getElem?_rows (k := a / 32) (by omega)
  have hbyte := m.getElem?_block (32 * (a / 32)) (k := a % 32) (n := 32) (by omega)
  rw [Nat.div_add_mod] at hbyte
  simp [byteAt, ha, hrow, hbyte]

/-- **A dump is read as the memory that was dumped.** -/
theorem ofDump?_dump (m : Memory) : ofDump? m.dump = some m := by
  rw [ofDump?, textLines_dump, mapM_map_eq_some Numeral.readBytes?_bytes, Option.bind_some, ofRows?_rows]

/-- A dump is lines of sixty-four digits in lower case. -/
theorem of_mem_textLines_dump {m : Memory} {l : List Char} (h : l ∈ textLines m.dump) :
    l.length = 64 ∧ ∀ c ∈ l, c ∈ Numeral.lowerDigits := by
  rw [textLines_dump] at h
  obtain ⟨row, hrow, rfl⟩ := List.mem_map.1 h
  refine ⟨?_, fun _ => Numeral.mem_lowerDigits_of_mem_bytes⟩
  rw [Numeral.length_bytes, m.length_rows.2 row hrow]

end Memory

/-- **Listings in base 16 lose nothing.** Words between bars are read back, whatever their size and however many there
are, and only the empty list is written as the empty text. So the summary of a machine tells its two addresses and all of
its registers. And a dump is 128 lines of sixty-four digits in lower case; each byte has its two digits, the higher one
first, in the line of its row and at twice its place there; and the memory is read off its dump. -/
theorem listings_lossless :
    (∀ ws : List Nat, Numeral.readBarred? (Numeral.barred ws) = some ws ∧ (Numeral.barred ws = "" ↔ ws = [])) ∧
    (∀ ws ws' : List Nat, Numeral.barred ws = Numeral.barred ws' ↔ ws = ws') ∧
    (∀ m : Machine,
      Machine.readSummary? m.summary = some (m.pc, m.index, m.registers.toList.map UInt8.toNat)) ∧
    (∀ m n : Machine, m.summary = n.summary ↔ m.pc = n.pc ∧ m.index = n.index ∧ m.registers = n.registers) ∧
    ∀ m : Memory,
      (textLines m.dump).length = 128 ∧
      (∀ l ∈ textLines m.dump, l.length = 64 ∧ ∀ c ∈ l, c ∈ Numeral.lowerDigits) ∧
      (∀ k < 128, ∀ j < 32,
        charAt? m.dump (2 * j) k = some (Nat.digitChar ((m.byteAt (32 * k + j)).toNat / 16)) ∧
        charAt? m.dump (2 * j + 1) k = some (Nat.digitChar ((m.byteAt (32 * k + j)).toNat % 16))) ∧
      Memory.ofDump? m.dump = some m ∧ ∀ m' : Memory, m.dump = m'.dump ↔ m = m' := by
  have hbarred := write_eq_iff Numeral.readBarred?_barred
  have hdump := write_eq_iff Memory.ofDump?_dump
  refine ⟨fun ws => ⟨Numeral.readBarred?_barred ws, ?_⟩, hbarred, Machine.readSummary?_summary,
    Machine.summary_eq_iff, fun m => ⟨?_, fun _ => Memory.of_mem_textLines_dump, fun k hk j hj => m.charAt?_dump hk hj,
      m.ofDump?_dump, hdump m⟩⟩
  · have hnil : Numeral.barred [] = "" := rfl
    rw [← hnil, hbarred]
  · rw [Memory.textLines_dump, List.length_map, m.length_rows.1]

/-- Words of one to four digits; and the first byte of the font, in the first line of a dump, and its last one, in the
third. -/
theorem listings_lossless_fresh :
    Numeral.readBarred? "00|09|ab|1000|ffff" = some [0, 9, 0xAB, 0x1000, 0xFFFF] ∧
    charAt? Memory.fresh.dump 0 0 = some 'f' ∧ charAt? Memory.fresh.dump 1 0 = some '0' ∧
    charAt? Memory.fresh.dump 30 2 = some '8' ∧ charAt? Memory.fresh.dump 31 2 = some '0' ∧
    (Numeral.bytes (Memory.fresh.block 0 32)).length = 64 := by
  obtain ⟨hbars, -, -, -, hdump⟩ := listings_lossless
  obtain ⟨-, hlines, hdigits, -⟩ := hdump Memory.fresh
  have hfirst := hdigits 0 (by decide) 0 (by decide)
  have hlast := hdigits 2 (by decide) 15 (by decide)
  have hmem : Numeral.bytes (Memory.fresh.block 0 32) ∈ textLines Memory.fresh.dump := by
    rw [Memory.textLines_dump]
    exact List.mem_map.2 ⟨_, List.mem_map.2 ⟨0, by decide, rfl⟩, rfl⟩
  rw [Memory.byteAt_fresh] at hfirst hlast
  exact ⟨(hbars [0, 9, 0xAB, 0x1000, 0xFFFF]).1, hfirst.1, hfirst.2, hlast.1, hlast.2, (hlines _ hmem).1⟩

end Chip8
