import LineConsole.Text.Printable

/-!
# Quoted text

A label or an argument that appears inside a message is quoted, so that the message stays on one
line and shows where the label begins and ends. The quote is `'`, or `"` when that saves
escaping: the text holds a `'` and no `"`.

## Main definitions

* `Text.quoteMark` — the quote a text is written with
* `Text.escapeChar` — how one character is written between quotes
* `Text.quoted` — the quoted text
-/

namespace LineConsole.Text

/-- The single quote. -/
def singleQuote : Char := '\x27'

/-- The double quote. -/
def doubleQuote : Char := '\x22'

/-- Double quotes only where they save escaping single ones. -/
def quoteMark (t : Text) : Char :=
  if t.contains singleQuote && !t.contains doubleQuote then doubleQuote else singleQuote

/-- The lower-case hexadecimal digits of a code point, padded with zeros to `width`. -/
def hexDigits (width n : Nat) : Text :=
  let digits := Nat.toDigits 16 n
  List.replicate (width - digits.length) '0' ++ digits

/-- An escape that names a code point: the shortest of three widths that holds it. -/
def codePointEscape (n : Nat) : Text :=
  if n < 0x100 then '\\' :: 'x' :: hexDigits 2 n
  else if n < 0x10000 then '\\' :: 'u' :: hexDigits 4 n
  else '\\' :: 'U' :: hexDigits 8 n

/-- How a character is written between two `quote`s. -/
def escapeChar (quote c : Char) : Text :=
  if c = quote || c = '\\' then ['\\', c]
  else if c = '\n' then ['\\', 'n']
  else if c = '\r' then ['\\', 'r']
  else if c = '\t' then ['\\', 't']
  else if isPrintable c then [c]
  else codePointEscape c.toNat

/-- The text between quotes, with escapes for all that is not printable. -/
def quoted (t : Text) : Text :=
  let quote := quoteMark t
  quote :: (t.flatMap (escapeChar quote) ++ [quote])

end LineConsole.Text
