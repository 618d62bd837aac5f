import NotebookPages.Text.Basic

/-!
What went wrong, with its causes from the nearest to the first, and the two ways of showing it: over
several lines at the end of a run, and on one line within a status.
-/

namespace NotebookPages

structure Failure where
  message : Text
  causes : List Text := []
  deriving DecidableEq, Repr

namespace Failure

def within (context : Text) (f : Failure) : Failure := ⟨context, f.message :: f.causes⟩

def inline (f : Failure) : Text := Text.joinWith ": " (f.message :: f.causes)

private def indent (first rest text : Text) : Text :=
  first ++ Text.joinWith ('\n' :: rest) (Text.splitLines text)

/-- The causes with their numbers, which are left out for a single cause. -/
private def numbered (number : Nat) : List Text → List Text
  | [] => []
  | cause :: rest =>
    let digits := Text.ofNat number
    let margin := List.replicate (5 - digits.length) ' ' ++ digits ++ ": "
    indent margin "       " cause :: numbered (number + 1) rest

def causeLines : List Text → List Text
  | [cause] => [indent "    " "    " cause]
  | causes => numbered 0 causes

def report (f : Failure) : Text :=
  if f.causes.isEmpty then f.message
  else f.message ++ "\n\nCaused by:\n" ++ Text.joinWith "\n" (causeLines f.causes)

end Failure
end NotebookPages
