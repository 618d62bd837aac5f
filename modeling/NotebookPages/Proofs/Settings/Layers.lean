import NotebookPages.Settings.Basic

/-! What counts of a setting: the value on the command line, else the project's, else the user's, else the built-in one. The other
settings do not matter to it, nor does it matter which sections a layer has. -/

namespace NotebookPages.Settings

variable {α σ : Type}

/-- A section of the settings. Of two layers that both have it, the upper one is laid over the lower one. -/
structure Part (σ : Type) where
  read : Settings → Option σ
  overlay : σ → σ → σ
  absent : read {} = none
  layered : ∀ lower upper, read (lower.overlay upper) = overlaySection overlay (read lower) (read upper)

/-- A setting that a layer may give. A layer that is laid over another one hides what it gives itself, and nothing else. -/
structure Setting (α : Type) where
  read : Settings → Option α
  absent : read {} = none
  layered : ∀ lower upper, read (lower.overlay upper) = (read upper).or (read lower)

theorem overlaySection_none (overlay : σ → σ → σ) (x : Option σ) : overlaySection overlay none x = x := by
  cases x <;> rfl

theorem bind_overlaySection {overlay : σ → σ → σ} {field : σ → Option α}
    (layered : ∀ lower upper, field (overlay lower upper) = (field upper).or (field lower)) (lower upper : Option σ) :
    (overlaySection overlay lower upper).bind field = (upper.bind field).or (lower.bind field) := by
  cases lower with
  | none => rw [overlaySection_none, Option.bind_none, Option.or_none]
  | some lower =>
    cases upper with
    | none => rfl
    | some upper => exact layered lower upper

theorem overlaySection_assoc {overlay : σ → σ → σ} (assoc : ∀ x y z, overlay (overlay x y) z = overlay x (overlay y z))
    (x y z : Option σ) :
    overlaySection overlay (overlaySection overlay x y) z = overlaySection overlay x (overlaySection overlay y z) := by
  cases x <;> cases y <;> cases z
  all_goals first | rfl | exact congrArg some (assoc _ _ _)

namespace Part

def convert : Part ConvertSettings := ⟨Settings.convert, ConvertSettings.overlay, rfl, fun _ _ => rfl⟩
def description : Part DescriptionSettings := ⟨Settings.description, DescriptionSettings.overlay, rfl, fun _ _ => rfl⟩
def batch : Part BatchSettings := ⟨Settings.batch, BatchSettings.overlay, rfl, fun _ _ => rfl⟩

/-- A field of the section. -/
def setting (p : Part σ) (field : σ → Option α)
    (layered : ∀ lower upper, field (p.overlay lower upper) = (field upper).or (field lower)) : Setting α where
  read s := (p.read s).bind field
  absent := by rw [p.absent, Option.bind_none]
  layered lower upper := by rw [p.layered, bind_overlaySection layered]

end Part

namespace Setting

def dialect : Setting Text := Part.convert.setting ConvertSettings.dialect fun _ _ => rfl
def language : Setting Text := Part.convert.setting ConvertSettings.language fun _ _ => rfl
def outputDir : Setting Path := Part.convert.setting ConvertSettings.outputDir fun _ _ => rfl
def maxLine : Setting Nat := Part.convert.setting ConvertSettings.maxLine fun _ _ => rfl
def sidebarPosition : Setting Int := Part.convert.setting ConvertSettings.sidebarPosition fun _ _ => rfl
def minLength : Setting Nat := Part.description.setting DescriptionSettings.minLength fun _ _ => rfl
def maxLength : Setting Nat := Part.description.setting DescriptionSettings.maxLength fun _ _ => rfl
def fallback : Setting Text := Part.description.setting DescriptionSettings.fallback fun _ _ => rfl
def failFast : Setting Bool := Part.batch.setting BatchSettings.failFast fun _ _ => rfl
def parallel : Setting Nat := Part.batch.setting BatchSettings.parallel fun _ _ => rfl
def backup : Setting Bool := Part.batch.setting BatchSettings.backup fun _ _ => rfl

/-- The value that counts: the one that is given, else the project's, else the user's. -/
def effective (x : Setting α) (given : Option α) (user project : Option Settings) : Option α :=
  match given, project.bind x.read, user.bind x.read with
  | some value, _, _ => some value
  | none, some value, _ => some value
  | none, none, other => other

end Setting

theorem empty_overlay (s : Settings) : ({} : Settings).overlay s = s := by
  rw [overlay, overlaySection_none, overlaySection_none, overlaySection_none]

theorem overlay_assoc (a b c : Settings) : (a.overlay b).overlay c = a.overlay (b.overlay c) := by
  have convert : ∀ x y z : ConvertSettings, (x.overlay y).overlay z = x.overlay (y.overlay z) := by
    simp [ConvertSettings.overlay, Option.or_assoc]
  have description : ∀ x y z : DescriptionSettings, (x.overlay y).overlay z = x.overlay (y.overlay z) := by
    simp [DescriptionSettings.overlay, Option.or_assoc]
  have batch : ∀ x y z : BatchSettings, (x.overlay y).overlay z = x.overlay (y.overlay z) := by
    simp [BatchSettings.overlay, Option.or_assoc]
  simp only [overlay, overlaySection_assoc convert, overlaySection_assoc description, overlaySection_assoc batch]

theorem merge_eq (user project : Option Settings) : merge user project = (user.getD {}).overlay (project.getD {}) := by
  rw [merge, empty_overlay]

namespace Setting

variable (x : Setting α) (given : Option α) (user project : Option Settings)

theorem read_getD (layer : Option Settings) : x.read (layer.getD {}) = layer.bind x.read := by
  cases layer with
  | none => exact x.absent
  | some s => rfl

theorem effective_eq : x.effective given user project = given.or (x.read (merge user project)) := by
  rw [merge_eq, x.layered, x.read_getD, x.read_getD]
  unfold effective
  cases given <;> cases project.bind x.read <;> rfl

end Setting

theorem resolveDialect_eq (s : Settings) (given : Option Dialect) : s.resolveDialect given =
    match given, Setting.dialect.read s with
    | some d, _ => .ok d
    | none, some name => Dialect.parse name
    | none, none => .ok .mdx := by
  cases given with
  | some d => rfl
  | none =>
    rw [resolveDialect]
    cases named : Setting.dialect.read s with
    | none => rw [show s.convert.bind ConvertSettings.dialect = none from named]
    | some name => rw [show s.convert.bind ConvertSettings.dialect = some name from named]

/-- A flag on the command line counts as given when it is set. -/
def flag (raised : Bool) : Option Bool := if raised then some true else none

/-- Settings that resolve to the values that count in these layers. The name of a dialect is chosen before it is parsed. -/
structure Layered (s : Settings) (user project : Option Settings) : Prop where
  dialect : ∀ given, s.resolveDialect given =
    match given, Setting.dialect.effective none user project with
    | some d, _ => .ok d
    | none, some name => Dialect.parse name
    | none, none => .ok .mdx
  outputDir : ∀ given, s.resolveOutputDir given = Setting.outputDir.effective given user project
  failFast : ∀ raised, s.resolveFailFast raised = (Setting.failFast.effective (flag raised) user project).getD false
  backup : ∀ raised, s.resolveBackup raised = (Setting.backup.effective (flag raised) user project).getD false
  parallel : ∀ given, s.resolveParallel given = (Setting.parallel.effective given user project).getD 0
  pageOptions : ∀ d given, s.pageOptions d given = {
    dialect := d
    defaultLanguage := (Setting.language.effective given user project).getD "python"
    maxLine := (Setting.maxLine.effective none user project).getD 2000
    sidebarPosition := Setting.sidebarPosition.effective none user project
    description := {
      minLength := (Setting.minLength.effective none user project).getD 20
      maxLength := (Setting.maxLength.effective none user project).getD 150
      fallback := (Setting.fallback.effective none user project).getD "Jupyter notebook converted to documentation" } }

/-- Merged settings resolve to the value on the command line, else the project's, else the user's, else the built-in one. More
layers may be merged in any grouping. -/
theorem merge_layered : (∀ user project, Layered (merge user project) user project) ∧
    ∀ a b c : Option Settings, merge (some (merge a b)) c = merge a (some (merge b c)) := by
  refine ⟨fun user project => ⟨fun given => ?_, fun given => ?_, fun raised => ?_, fun raised => ?_, fun given => ?_, ?_⟩, ?_⟩
  · rw [resolveDialect_eq, Setting.effective_eq, Option.none_or]
  · rw [Setting.effective_eq]
    rfl
  · rw [Setting.effective_eq]
    cases raised <;> rfl
  · rw [Setting.effective_eq]
    cases raised <;> rfl
  · rw [Setting.effective_eq]
    rfl
  · intro d given
    simp only [Setting.effective_eq, Option.none_or]
    obtain ⟨convert, description, batch⟩ := merge user project
    cases convert <;> cases description <;> rfl
  · intro a b c
    rw [merge_eq, merge_eq a (some _), Option.getD_some, Option.getD_some, merge_eq, merge_eq, overlay_assoc]

/-- A section of the project hides only what it sets, and an empty one hides nothing. -/
example :
    let user : Settings := { convert := some { language := some "r", maxLine := some 80 }, batch := some { parallel := some 2 } }
    let merged := merge (some user) (some { convert := some { language := some "julia" }, batch := some {} })
    let options := merged.pageOptions .mdx none
    options.defaultLanguage = "julia" ∧ options.maxLine = 80 ∧ merged.resolveParallel none = 2 := by
  decide

end NotebookPages.Settings
