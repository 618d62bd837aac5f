import NotebookPages.Markup.Tag

/-!
The constructs of a prose line that span several characters: code spans, comments, data links and
autolinks. Each is recognised at the start of a text by what follows it.
-/

namespace NotebookPages.Markup

def isBacktick (c : Char) : Bool := c == '`'

/-- What follows the first run of exactly `n` backticks, `run` of which precede the text. -/
def afterRun? (n run : Nat) : Text → Option Text
  | [] => if run == n then some [] else none
  | c :: rest =>
    if isBacktick c then afterRun? n (run + 1) rest
    else if run == n then some (c :: rest)
    else afterRun? n 0 rest

/-- What follows the code span at the start of the text, or its run of backticks where no run of the
same length closes it. -/
def afterCode (s : Text) : Text :=
  let rest := s.dropWhile isBacktick
  (afterRun? (s.takeWhile isBacktick).length 0 rest).getD rest

/-- What follows an MDX comment: the first mark that ends the comment must be followed by its
closing brace. -/
def afterComment? (s : Text) : Option Text :=
  match Text.after? "\x7b/*" s with
  | none => none
  | some body =>
    match Text.cut "*/" body with
    | some (_, '\x7d' :: rest) => some rest
    | _ => none

/-- What follows a link to a data URL that begins the text. -/
def afterDataLink? : Text → Option Text
  | '[' :: body =>
    match Text.cut "](" body with
    | none => none
    | some (_, url) => if isDataUrl url then (Text.cut ")" url).map Prod.snd else none
  | _ => none

def autolinkSchemes : List Text := ["http://", "https://", "mailto:"]

def isUrlChar (c : Char) : Bool :=
  !Text.isBlank c && !("<>\x7b\x7d[]()`\"'\\" : Text).contains c

/-- The URL of an autolink that begins the text, and what follows the autolink. -/
def autolink? : Text → Option (Text × Text)
  | '<' :: body =>
    match autolinkSchemes.find? (Text.startsWith body) with
    | none => none
    | some scheme =>
      match Text.cut ">" body with
      | none => none
      | some (url, rest) =>
        if scheme.length < url.length && url.all isUrlChar then some (url, rest) else none
  | _ => none

end NotebookPages.Markup
