set_option autoImplicit false

namespace KNames.Toml

abbrev Reader (α : Type) := List Char → Option (α × List Char)

def expect? (c : Char) : List Char → Option (List Char)
  | first :: rest => if first = c then some rest else none
  | [] => none

def isBlank (c : Char) : Bool := c == ' ' || c == '\t'

def skipBlank (text : List Char) : List Char := text.dropWhile isBlank

def isNonAscii (c : Char) : Bool := 0x80 ≤ c.toNat

def isCommentChar (c : Char) : Bool :=
  c == '\t' || (0x20 ≤ c.toNat && c.toNat ≤ 0x7E) || isNonAscii c

def newline? : List Char → Option (List Char)
  | '\n' :: rest => some rest
  | '\r' :: '\n' :: rest => some rest
  | _ => none

def skipComment : List Char → List Char
  | '#' :: rest => rest.dropWhile isCommentChar
  | text => text

def lineEnd? (text : List Char) : Option (List Char) :=
  match skipComment (skipBlank text) with
  | [] => some []
  | text => newline? text

/-- Skips blanks, line ends and comments; `inComment` tells whether a comment is going on. -/
def skipSpace (inComment : Bool) : List Char → List Char
  | '\r' :: '\n' :: rest => skipSpace false rest
  | c :: rest =>
    if inComment && isCommentChar c then skipSpace true rest
    else if isBlank c || c == '\n' then skipSpace false rest
    else if c == '#' then skipSpace true rest
    else c :: rest
  | [] => []

end KNames.Toml
