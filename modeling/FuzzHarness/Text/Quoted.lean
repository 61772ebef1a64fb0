import FuzzHarness.Text.Hex
import FuzzHarness.Text.Unprintable

/-!
# Quoted text

Messages show names, paths and entries between double quotes. Quotes, backslashes
and the common controls are escaped by a letter, every other unprintable character
by its number in braces. An apostrophe stands for itself.
-/

namespace FuzzHarness.Text

def quotedChar (c : Char) : List Char :=
  if c = '\x00' then ['\\', '0']
  else if c = '\t' then ['\\', 't']
  else if c = '\r' then ['\\', 'r']
  else if c = '\n' then ['\\', 'n']
  else if c = '"' then ['\\', '"']
  else if c = '\\' then ['\\', '\\']
  else if isUnprintable c then ['\\', 'u', '\x7b'] ++ hexNumber c.toNat ++ ['\x7d']
  else [c]

def quoted (text : String) : String :=
  String.ofList ('"' :: text.toList.flatMap quotedChar ++ ['"'])

end FuzzHarness.Text
