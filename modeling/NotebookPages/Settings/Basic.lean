import NotebookPages.Page.Options
import NotebookPages.Toml.Printer
import NotebookPages.Toml.Reader

/-!
Settings in layers. Each file may set any of the fields; the project's file is laid over the user's, and
the command line over both. What no layer sets has a built-in value.
-/

namespace NotebookPages

structure ConvertSettings where
  dialect : Option Text := none
  language : Option Text := none
  outputDir : Option Path := none
  maxLine : Option Nat := none
  sidebarPosition : Option Int := none
  deriving DecidableEq, Repr

structure DescriptionSettings where
  minLength : Option Nat := none
  maxLength : Option Nat := none
  fallback : Option Text := none
  deriving DecidableEq, Repr

structure BatchSettings where
  failFast : Option Bool := none
  parallel : Option Nat := none
  backup : Option Bool := none
  deriving DecidableEq, Repr

/-- One layer of settings, or several merged. A section may be there without setting anything. -/
structure Settings where
  convert : Option ConvertSettings := none
  description : Option DescriptionSettings := none
  batch : Option BatchSettings := none
  deriving DecidableEq, Repr

namespace ConvertSettings

def overlay (lower upper : ConvertSettings) : ConvertSettings where
  dialect := upper.dialect.or lower.dialect
  language := upper.language.or lower.language
  outputDir := upper.outputDir.or lower.outputDir
  maxLine := upper.maxLine.or lower.maxLine
  sidebarPosition := upper.sidebarPosition.or lower.sidebarPosition

end ConvertSettings

namespace DescriptionSettings

def overlay (lower upper : DescriptionSettings) : DescriptionSettings where
  minLength := upper.minLength.or lower.minLength
  maxLength := upper.maxLength.or lower.maxLength
  fallback := upper.fallback.or lower.fallback

end DescriptionSettings

namespace BatchSettings

def overlay (lower upper : BatchSettings) : BatchSettings where
  failFast := upper.failFast.or lower.failFast
  parallel := upper.parallel.or lower.parallel
  backup := upper.backup.or lower.backup

end BatchSettings

namespace Settings

/-- Lay a section over another where both are there. -/
def overlaySection (overlay : α → α → α) : Option α → Option α → Option α
  | some lower, some upper => some (overlay lower upper)
  | lower, none => lower
  | none, upper => upper

def overlay (lower upper : Settings) : Settings where
  convert := overlaySection ConvertSettings.overlay lower.convert upper.convert
  description := overlaySection DescriptionSettings.overlay lower.description upper.description
  batch := overlaySection BatchSettings.overlay lower.batch upper.batch

def merge (user project : Option Settings) : Settings :=
  (overlay {} (user.getD {})).overlay (project.getD {})

def fileName : Text := ".nbdoc.toml"

def dialectMessage (e : UnknownName) : Text := fileName ++ ": convert.dialect: " ++ e.message

def resolveDialect (s : Settings) (given : Option Dialect) : Except UnknownName Dialect :=
  match given with
  | some d => .ok d
  | none =>
    match s.convert.bind ConvertSettings.dialect with
    | some name => Dialect.parse name
    | none => .ok .mdx

def resolveOutputDir (s : Settings) (given : Option Path) : Option Path :=
  given.or (s.convert.bind ConvertSettings.outputDir)

def resolveFailFast (s : Settings) (given : Bool) : Bool :=
  given || (s.batch.bind BatchSettings.failFast).getD false

def resolveBackup (s : Settings) (given : Bool) : Bool :=
  given || (s.batch.bind BatchSettings.backup).getD false

/-- The number of workers; zero stands for one per core. -/
def resolveParallel (s : Settings) (given : Option Nat) : Nat :=
  (given.or (s.batch.bind BatchSettings.parallel)).getD 0

def pageOptions (s : Settings) (d : Dialect) (language : Option Text) : PageOptions :=
  let standard : PageOptions := {}
  let convert := s.convert.getD {}
  let description := s.description.getD {}
  { dialect := d
    defaultLanguage := (language.or convert.language).getD standard.defaultLanguage
    maxLine := convert.maxLine.getD standard.maxLine
    sidebarPosition := convert.sidebarPosition
    description := {
      minLength := description.minLength.getD standard.description.minLength
      maxLength := description.maxLength.getD standard.description.maxLength
      fallback := description.fallback.getD standard.description.fallback } }

end Settings
end NotebookPages
