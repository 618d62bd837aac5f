import NotebookPages.Proofs.Page.Destination
import NotebookPages.Proofs.Path.Walks

/-! Where a page lies. It lies in the directory that is asked for, or else in that of its source, under a name that a link can
carry, and the page of a page lies where that page does. -/

namespace NotebookPages

namespace Text

/-- Lower-case letters, digits, underscores and single inner dashes. -/
structure Linkable (stem : Text) : Prop where
  kept : ∀ c ∈ stem, ('a' ≤ c ∧ c ≤ 'z') ∨ ('0' ≤ c ∧ c ≤ '9') ∨ c = '_' ∨ c = '-'
  start : stem.head? ≠ some '-'
  stop : stem.getLast? ≠ some '-'
  single : ¬ ['-', '-'] <:+: stem
  some : stem ≠ []

theorem linkable_char {c : Char} (kept : slugChar c = c) :
    ('a' ≤ c ∧ c ≤ 'z') ∨ ('0' ≤ c ∧ c ≤ '9') ∨ c = '_' ∨ c = '-' := by
  have all : ∀ n < 128, slugChar (Char.ofNat n) = Char.ofNat n →
      ('a' ≤ Char.ofNat n ∧ Char.ofNat n ≤ 'z') ∨ ('0' ≤ Char.ofNat n ∧ Char.ofNat n ≤ '9') ∨ Char.ofNat n = '_' ∨ Char.ofNat n = '-' := by
    decide +kernel
  by_cases dash : c = '-'
  · exact Or.inr (Or.inr (Or.inr dash))
  · have marked : slugChar c ≠ '-' := by rwa [kept]
    simpa using all c.toNat (toNat_lt_of_slugChar marked) (by simpa using kept)

theorem Slugged.linkable {stem : Text} (slugged : Slugged stem) (some : stem ≠ []) : Linkable stem where
  kept c inside := linkable_char (slugged.kept c inside)
  start := slugged.start
  stop := slugged.stop
  single := fun dashes => by
    have spaced := slugged.spaced.infix dashes
    simp at spaced
  some := some

end Text

namespace Page

variable {d : Dialect} {directory : Option Path} {input : Path}

theorem Settled.linkable {stem : Text} (settled : Settled stem) : Text.Linkable stem :=
  (settled.slug ▸ Text.slugged_slug stem).linkable settled.some

/-- The path lies directly in the directory, under a name that a link can carry and with the extension of the dialect. -/
def LiesIn (d : Dialect) (base p : Path) : Prop :=
  (∃ above, Path.parent? p = some above ∧ Path.same above base = true) ∧
    ∃ stem, Text.Linkable stem ∧ Path.fileName? p = some (stem ++ "." ++ d.extension)

theorem liesIn_join {stem : Text} (settled : Settled stem) (base : Path) : LiesIn d base (Path.join base (stem ++ "." ++ d.extension)) := by
  have proper := (named d settled.whole).toProper
  have name := Path.fileName?_join base proper
  refine ⟨?_, stem, settled.linkable, name⟩
  obtain ⟨above, found, whole⟩ := Path.components_parent? name
  rw [Path.components_join base proper] at whole
  exact ⟨above, found, beq_iff_eq.mpr (List.append_cancel_right whole).symm⟩

/-- Two directories that are the same hold the same files. -/
theorem same_join {p q : Path} {n : Text} (alike : Path.same p q = true) (proper : Path.Proper n) :
    Path.same (Path.join p n) (Path.join q n) = true := by
  have alike : Path.components p = Path.components q := beq_iff_eq.mp alike
  refine beq_iff_eq.mpr ?_
  rw [Path.components_join p proper, Path.components_join q proper, alike]

/-- The page of a source lies in the directory that is asked for, or else in that of the source. The page of that page is the page
itself, both with the same directory asked for and with none. -/
theorem outputPath_liesIn (d : Dialect) (directory : Option Path) (input : Path) :
    LiesIn d ((directory.or (Path.parent? input)).getD []) (outputPath d directory input) ∧
      Path.same (outputPath d none (outputPath d directory input)) (outputPath d directory input) = true ∧
      Path.same (outputPath d directory (outputPath d directory input)) (outputPath d directory input) = true := by
  obtain ⟨stem, settled, place⟩ := outputPath_stem d directory input
  have proper := (named d settled.whole).toProper
  have lies := place ▸ liesIn_join (d := d) settled ((directory.or (Path.parent? input)).getD [])
  obtain ⟨above, found, alike⟩ := lies.1
  have again := outputPath_of_page settled (place ▸ Path.fileName?_join _ proper) d
  have beside : Path.same (outputPath d none (outputPath d directory input)) (outputPath d directory input) = true := by
    rw [again none, found]
    exact place ▸ same_join alike proper
  refine ⟨lies, beside, ?_⟩
  cases directory with
  | none => exact beside
  | some base =>
    rw [again (some base), place]
    exact beq_self_eq_true _

/-- A name in another script, of which only dashes would be left. -/
example : outputPath .mdx none "in/./日本.ipynb" = "in/document.mdx" := by decide +kernel

end Page
end NotebookPages
