import KNames.Text.Blank

set_option autoImplicit false

/-!
# Which file a `require` path means

A path is trimmed, its leading `./` and `../` segments are dropped, and what remains must be a
tail of the file's address that begins at a segment.
-/
namespace KNames.RequirePath

def dropDots : List Char → List Char
  | '.' :: '/' :: rest => dropDots rest
  | '.' :: '.' :: '/' :: rest => dropDots rest
  | rest => rest

def core (path : String) : List Char := dropDots (Text.trim path.toList)

/-- A non-empty tail of the address before which nothing stands or a slash. -/
def isSegmentTail (tail address : List Char) : Bool :=
  !tail.isEmpty && tail.isSuffixOf address &&
    ((address.take (address.length - tail.length)).getLast?.elim true (· == '/'))

def designates (path uri : String) : Bool := isSegmentTail (core path) uri.toList

end KNames.RequirePath
