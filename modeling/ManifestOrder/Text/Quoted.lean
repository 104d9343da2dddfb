import ManifestOrder.Text.Character
import ManifestOrder.Text.Printable

/-!
# Quoted text

How a path stands in the message of a failed file access: between apostrophes, or between double
quotes when it holds an apostrophe and no double quote. What cannot be seen is escaped.
-/

namespace ManifestOrder.Text

def apostrophe : Char := '\x27'

def doubleQuote : Char := '\x22'

def backslash : Char := '\x5C'

/-- The quote that encloses `text`. -/
def quoteFor (text : String) : Char :=
  if text.contains apostrophe && !text.contains doubleQuote then doubleQuote else apostrophe

def escapeIn (quote c : Char) : String :=
  if c = quote || c = backslash then String.ofList [backslash, c]
  else if c = '\t' then "\\t"
  else if c = '\n' then "\\n"
  else if c = '\r' then "\\r"
  else if isPrintable c then String.ofList [c]
  else if c.toNat < 0x100 then "\\x" ++ hexDigits 2 c.toNat
  else if c.toNat < 0x10000 then "\\u" ++ hexDigits 4 c.toNat
  else "\\U" ++ hexDigits 8 c.toNat

def quoted (text : String) : String :=
  let quote := quoteFor text
  let mark := String.ofList [quote]
  mark ++ String.join (text.toList.map (escapeIn quote)) ++ mark

end ManifestOrder.Text
