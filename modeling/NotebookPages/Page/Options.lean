import NotebookPages.Markup.Sanitize
import NotebookPages.Notebook.Summary

/-!
How pages are written.
-/

namespace NotebookPages

structure PageOptions where
  dialect : Dialect := .mdx
  defaultLanguage : Text := "python"
  maxLine : Nat := 2000
  description : DescriptionRules := {}
  sidebarPosition : Option Int := none
  deriving DecidableEq, Repr

namespace PageOptions

def rules (o : PageOptions) : Markup.Rules := ⟨o.dialect, o.maxLine⟩

end PageOptions
end NotebookPages
