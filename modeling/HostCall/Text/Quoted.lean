import HostCall.Text.Printable
import HostCall.Text.Extending
import HostCall.Text.Ignorable

/-!
# Quoted text

The quoted form of a text stands between double quotes on one line. A quote and a backslash
follow a backslash, four control characters have letters of their own, and every other character
that would not show, or would join the one before it, is written by its number.
-/

namespace HostCall.Text

def hex (n : Nat) : List Char := Nat.toDigits 16 n

def quotedChar (c : Char) : List Char :=
  if c = '"' then ['\\', '"']
  else if c = '\\' then ['\\', '\\']
  else if c = '\n' then ['\\', 'n']
  else if c = '\t' then ['\\', 't']
  else if c = '\r' then ['\\', 'r']
  else if c = '\x00' then ['\\', '0']
  else if isExtending c || isIgnorable c || !isPrintable c then
    ['\\', 'u', '\x7b'] ++ hex c.toNat ++ ['\x7d']
  else [c]

def quoted (s : String) : String :=
  String.ofList ('"' :: (s.toList.flatMap quotedChar ++ ['"']))

end HostCall.Text
