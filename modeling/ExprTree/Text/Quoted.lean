/-
# Quoted text

Text is written between double quotes. A double quote and a backslash get a backslash in front, tab,
carriage return, line feed and NUL have a letter of their own, and an unprintable character is
written as its code point in lower-case hexadecimal. Everything else stands for itself.
-/
import ExprTree.Text.Unprintable

namespace ExprTree.Text

/-- The written form of one character of a quoted text. -/
def quoteChar (c : Char) : List Char :=
  if c = '"' then ['\\', '"']
  else if c = '\\' then ['\\', '\\']
  else if c = '\t' then ['\\', 't']
  else if c = '\r' then ['\\', 'r']
  else if c = '\n' then ['\\', 'n']
  else if c = '\x00' then ['\\', '0']
  else if isUnprintable c then
    ['\\', 'u', '\x7b'] ++ Nat.toDigits 16 c.toNat ++ ['\x7d']
  else [c]

/-- The written form of the characters of a text, without the quotes around it. -/
def quoteChars (text : List Char) : List Char :=
  text.flatMap quoteChar

/-- The quoted form of a text. -/
def quote (text : String) : String :=
  String.ofList ('"' :: quoteChars text.toList ++ ['"'])

end ExprTree.Text
