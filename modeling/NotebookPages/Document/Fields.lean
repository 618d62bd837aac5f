import NotebookPages.Document.Header
import NotebookPages.Yaml.Value

/-!
The fields of a header, which is a YAML mapping between its delimiters. A header that cannot be read,
or that holds something else, has no fields.
-/

namespace NotebookPages

structure Fields where
  pairs : List (Yaml.Value × Yaml.Value)
  deriving Repr

namespace Document

def headerText (header : Text) : Text :=
  let inner := match Text.cut "\n" header with
    | some (_, rest) => rest
    | none => []
  (Text.before? Header.delimiter (Text.trimEnd inner)).getD inner

def fields (header : Text) : Fields :=
  match Yaml.Value.read? (headerText header) with
  | some (.mapping pairs) => ⟨pairs⟩
  | _ => ⟨[]⟩

end Document

namespace Fields

def get? (f : Fields) (key : Text) : Option Yaml.Value :=
  (f.pairs.find? fun (k, _) => k.same (.string key)).map Prod.snd

def stringKeys (f : Fields) : List Text :=
  f.pairs.filterMap fun
    | (.string key, _) => some key
    | _ => none

/-- A text, number or boolean as text; an empty one does not count. -/
def text? (f : Fields) (key : Text) : Option Text :=
  let shown? := match f.get? key with
    | some (.string s) => some (Text.trim s)
    | some (.integer n) => some (Text.ofInt n)
    | some (.float x) => some (Yaml.Value.floatText x)
    | some (.bool true) => some "true"
    | some (.bool false) => some "false"
    | _ => none
  shown?.filter (!·.isEmpty)

end Fields
end NotebookPages
