import Chip8.Text.Graphic
import Chip8.Text.Numeral

/-!
# Quoted text

How a name is quoted in a message: between apostrophes, or between quotation marks if it holds an apostrophe
and no quotation mark. The mark that is used, backslashes and characters that are not graphic are escaped.
-/

set_option autoImplicit false

namespace Chip8.Text

def apostrophe : Char := Char.ofNat 0x27

def quotationMark : Char := Char.ofNat 0x22

/-- The mark that a text is quoted with. -/
def markFor (cs : List Char) : Char :=
  if cs.contains apostrophe && !cs.contains quotationMark then quotationMark else apostrophe

/-- A character inside a text that is quoted with a mark. -/
def escaped (mark c : Char) : List Char :=
  if c = mark ∨ c = '\\' then ['\\', c]
  else if c = '\n' then ['\\', 'n']
  else if c = '\r' then ['\\', 'r']
  else if c = '\t' then ['\\', 't']
  else if isGraphic c then [c]
  else if c.toNat < 0x100 then '\\' :: 'x' :: (Numeral.lower c.toNat).leftpad 2 '0'
  else if c.toNat < 0x10000 then '\\' :: 'u' :: (Numeral.lower c.toNat).leftpad 4 '0'
  else '\\' :: 'U' :: (Numeral.lower c.toNat).leftpad 8 '0'

def quoted (s : String) : String :=
  let mark := markFor s.toList
  String.ofList (mark :: s.toList.flatMap (escaped mark) ++ [mark])

end Chip8.Text
