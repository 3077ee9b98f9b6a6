import Palette.Unicode.Extending
import Palette.Unicode.Printable

/-!
# Quoted text

Messages show text with everything invisible spelled out: the usual two-character escapes for
tab, line ends, NUL and the backslash, and `\u` with the hexadecimal code point in braces for
every other character without a form of its own. A mark that would be drawn on the character
before it is spelled out too.

Two forms differ in what surrounds the text. `quoted` puts double quotes around it, so only
those are escaped, and marks are always spelled out. `escaped` has no quotes of its own: it
escapes both kinds, and spells out a mark only at the very front, where nothing precedes it.
-/

namespace Palette.Text

open Unicode

/-- The escape that names a character by its code point. -/
def codePointEscape (c : Char) : List Char :=
  ['\\', 'u', '\x7b'] ++ Nat.toDigits 16 c.toNat ++ ['\x7d']

/--
The form of one character: `quotes` are the characters to escape as quotes, and `front` tells
whether a mark here would stand alone.
-/
def escapeChar (quotes : List Char) (front : Bool) (c : Char) : List Char :=
  match c with
  | '\x00' => ['\\', '0']
  | '\t' => ['\\', 't']
  | '\r' => ['\\', 'r']
  | '\n' => ['\\', 'n']
  | '\\' => ['\\', '\\']
  | c =>
    if quotes.contains c then ['\\', c]
    else if front && isExtending c then codePointEscape c
    else if isPrintable c then [c]
    else codePointEscape c

/-- The text between double quotes, fit to be read on one line. -/
def quoted (text : String) : String :=
  String.ofList (['"'] ++ text.toList.flatMap (escapeChar ['"'] true) ++ ['"'])

/-- The text without quotes of its own, fit to be read on one line. -/
def escaped (text : String) : String :=
  String.ofList <|
    match text.toList with
    | [] => []
    | c :: cs =>
      escapeChar ['"', '\''] true c ++ cs.flatMap (escapeChar ['"', '\''] false)

/-- The pieces with a separator between neighbours. -/
def joined (separator : String) (pieces : List String) : String :=
  separator.intercalate pieces

/-- The text with blanks behind it, up to `width` characters. -/
def padRight (width : Nat) (text : String) : String :=
  text ++ String.ofList (List.replicate (width - text.length) ' ')

/-- The text with blanks before it, up to `width` characters. -/
def padLeft (width : Nat) (text : String) : String :=
  String.ofList (List.replicate (width - text.length) ' ') ++ text

end Palette.Text
