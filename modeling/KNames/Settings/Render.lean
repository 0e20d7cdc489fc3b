import KNames.Settings.Fields
import KNames.Settings.Document
import KNames.Text.Quoted

set_option autoImplicit false

/-!
# Writing settings

A document with one table and its two keys. The separator is written as plainly as TOML lets it:
a quote or a backslash as a literal string, a line end as a string over several lines, other
control characters by an escape, and all else as it is.
-/
namespace KNames.Settings

def upperHexDigit (n : Nat) : Char := (Text.hexDigit n).toUpper

def escapedChar (c : Char) : List Char :=
  if c = '\t' then ['\\', 't']
  else if c = '\r' then ['\\', 'r']
  else if c = '\x08' then ['\\', 'b']
  else if c = '\x0c' then ['\\', 'f']
  else if c.toNat < 0x20 ∨ c.toNat = 0x7F then
    ['\\', 'u', '0', '0', upperHexDigit (c.toNat / 16), upperHexDigit c.toNat]
  else [c]

def separatorText (c : Char) : List Char :=
  if c = '"' ∨ c = '\\' then ['\'', c, '\'']
  else if c = '\n' then ['"', '"', '"', '\n', '\n', '"', '"', '"']
  else ['"'] ++ escapedChar c ++ ['"']

def render (s : Settings) : String :=
  "[" ++ tableKey ++ "]\n" ++ importScopeKey ++ " = \"" ++ s.importScope.name ++ "\"\n" ++
    labelSeparatorKey ++ " = " ++ String.ofList (separatorText s.labelSeparator) ++ "\n"

end KNames.Settings
