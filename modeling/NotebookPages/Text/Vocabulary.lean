import NotebookPages.Text.Case

/-!
Names from a closed vocabulary, as written by people: the case does not matter, and a name outside
the vocabulary is reported with the names it knows.
-/

namespace NotebookPages

structure UnknownName where
  noun : Text
  name : Text
  expected : List Text
  deriving DecidableEq, Repr

def UnknownName.message (e : UnknownName) : Text :=
  "Unknown " ++ e.noun ++ " '" ++ e.name ++ "'. Expected: " ++ Text.joinWith ", " e.expected

end NotebookPages
