import ContentAddress.Bytes
import ContentAddress.Text.Standing

/-!
# Quoted text

How a string and a byte string are written between quotation marks.  Quotation mark and backslash
are marked by a backslash, and so are a few control characters by a letter.  In a string every other
character without a shape of its own is written by its code point; in a byte string every other byte
outside printable ASCII is written by its two hexadecimal digits.
-/

namespace ContentAddress.Text

/-- The hexadecimal digits of a number, without leading zeros. -/
def hexadecimal (n : Nat) : String := String.ofList (Nat.toDigits 16 n)

/-- The short escapes, common to strings and byte strings. -/
def shortEscape? (code : Nat) : Option String :=
  if code = 0 then some "\\0"
  else if code = 9 then some "\\t"
  else if code = 10 then some "\\n"
  else if code = 13 then some "\\r"
  else if code = 34 then some "\\\""
  else if code = 92 then some "\\\\"
  else none

def quotedChar (char : Char) : String :=
  match shortEscape? char.toNat with
  | some escape => escape
  | none =>
      if standsAlone char then char.toString
      else "\\u\x7b" ++ hexadecimal char.toNat ++ "\x7d"

def quotedByte (byte : UInt8) : String :=
  match shortEscape? byte.toNat with
  | some escape => escape
  | none =>
      if 0x20 ≤ byte ∧ byte < 0x7f then (Char.ofNat byte.toNat).toString
      else "\\x" ++ (if byte < 16 then "0" else "") ++ hexadecimal byte.toNat

def quote (text : String) : String :=
  "\"" ++ String.join (text.toList.map quotedChar) ++ "\""

/-- A byte string between quotation marks, led by the letter `b`. -/
def quoteBytes (bytes : Bytes) : String :=
  "b\"" ++ String.join (bytes.map quotedByte) ++ "\""

end ContentAddress.Text
