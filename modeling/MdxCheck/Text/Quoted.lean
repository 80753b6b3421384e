import MdxCheck.Text.Printable

/-!
Texts in quotes: in apostrophes, or in quotation marks if there are apostrophes but no quotation
marks inside. Characters without a glyph are written by their codes.
-/

namespace MdxCheck.Text

/-- The code of a character in as many hexadecimal digits as its size calls for. -/
def escapeCode (code : Nat) : Text :=
  if code < 0x100 then '\\' :: 'x' :: padded 16 2 code
  else if code < 0x10000 then '\\' :: 'u' :: padded 16 4 code
  else '\\' :: 'U' :: padded 16 8 code

def quotedChar (quote c : Char) : Text :=
  if c = quote ∨ c = '\\' then ['\\', c]
  else if c = '\n' then ['\\', 'n']
  else if c = '\r' then ['\\', 'r']
  else if c = '\t' then ['\\', 't']
  else if isPrintable c then [c]
  else escapeCode c.toNat

def quoteOf (text : Text) : Char :=
  if text.any (· == '\'') && !text.any (· == '"') then '"' else '\''

def quoted (text : Text) : Text :=
  let quote := quoteOf text
  quote :: (text.flatMap (quotedChar quote) ++ [quote])

end MdxCheck.Text
