import NotebookPages.Proofs.Text.Trim
import NotebookPages.Text.Phrase
import Mathlib.Data.List.Chain

/-! Slugs. A slug keeps its letters, has no two dashes in a row and none at its ends, and so it is its own slug. -/

namespace NotebookPages.Text

variable {c : Char} {s t : Text}

/-- No two dashes follow each other. -/
def Spaced (t : Text) : Prop := t.IsChain fun a b => ¬ (a = '-' ∧ b = '-')

structure Slugged (t : Text) : Prop where
  kept : ∀ c ∈ t, slugChar c = c
  spaced : Spaced t
  start : t.head? ≠ some '-'
  stop : t.getLast? ≠ some '-'

theorem toNat_lt_of_slugChar (kept : slugChar c ≠ '-') : c.toNat < 128 := by
  unfold slugChar at kept
  split at kept
  next named =>
    rw [Bool.or_eq_true, beq_iff_eq] at named
    rcases named with named | rfl
    · have bounds : ((97 ≤ c.toNat ∧ c.toNat ≤ 122) ∨ (65 ≤ c.toNat ∧ c.toNat ≤ 90)) ∨ (48 ≤ c.toNat ∧ c.toNat ≤ 57) := by
        simpa [isAlphanumeric, isLetter, isDigit, Char.le_def, UInt32.le_iff_toNat_le] using named
      omega
    · decide
  next => exact absurd rfl kept

theorem slugChar_slugChar (c : Char) : slugChar (slugChar c) = slugChar c := by
  by_cases dash : slugChar c = '-'
  · rw [dash]
    decide
  · have all : ∀ n < 128, slugChar (slugChar (Char.ofNat n)) = slugChar (Char.ofNat n) := by decide +kernel
    simpa using all c.toNat (toNat_lt_of_slugChar dash)

theorem head?_squeezeDashes (t : Text) : (squeezeDashes t).head? = t.head? := by
  induction t with
  | nil => rfl
  | cons c t ih =>
    rw [squeezeDashes]
    split
    next dashes =>
      obtain ⟨rfl, next⟩ : c = '-' ∧ t.head? = some '-' := by simpa using dashes
      rw [ih, next]
      rfl
    next => rfl

theorem spaced_squeezeDashes (t : Text) : Spaced (squeezeDashes t) := by
  induction t with
  | nil => exact .nil
  | cons c t ih =>
    rw [squeezeDashes]
    split
    next => exact ih
    next single =>
      refine List.isChain_cons.mpr ⟨fun d next => ?_, ih⟩
      rw [head?_squeezeDashes] at next
      rintro ⟨rfl, rfl⟩
      rw [Option.mem_def.mp next] at single
      exact single rfl

theorem squeezeDashes_of_spaced (spaced : Spaced t) : squeezeDashes t = t := by
  induction t with
  | nil => rfl
  | cons c t ih =>
    obtain ⟨next, spaced⟩ := List.isChain_cons.mp spaced
    rw [squeezeDashes, if_neg, ih spaced]
    intro dashes
    obtain ⟨rfl, first⟩ : c = '-' ∧ t.head? = some '-' := by simpa using dashes
    exact next '-' (Option.mem_def.mpr first) ⟨rfl, rfl⟩

theorem squeezeDashes_sublist (t : Text) : (squeezeDashes t).Sublist t := by
  induction t with
  | nil => exact List.Sublist.refl _
  | cons c t ih =>
    rw [squeezeDashes]
    split
    · exact ih.cons c
    · exact ih.cons_cons c

/-- What a slug leaves out of the dashed stem are dashes at its ends. -/
theorem slug_split (t : Text) : ∃ u v, squeezeDashes (t.map slugChar) = u ++ (slug t ++ v) := by
  obtain ⟨v, whole, -⟩ := dropEndWhile_split (· == '-') ((squeezeDashes (t.map slugChar)).dropWhile (· == '-'))
  refine ⟨(squeezeDashes (t.map slugChar)).takeWhile (· == '-'), v, ?_⟩
  rw [slug, ← whole, List.takeWhile_append_dropWhile]

theorem slugged_slug (t : Text) : Slugged (slug t) where
  kept c inside := by
    obtain ⟨u, v, whole⟩ := slug_split t
    have squeezed : c ∈ squeezeDashes (t.map slugChar) := by
      rw [whole]
      exact List.mem_append_right u (List.mem_append_left v inside)
    obtain ⟨d, -, rfl⟩ := List.mem_map.mp ((squeezeDashes_sublist _).subset squeezed)
    exact slugChar_slugChar d
  spaced := by
    obtain ⟨u, v, whole⟩ := slug_split t
    have spaced := spaced_squeezeDashes (t.map slugChar)
    rw [whole] at spaced
    exact (List.isChain_append.mp (List.isChain_append.mp spaced).2.1).1
  start first := by
    obtain ⟨v, whole, -⟩ := dropEndWhile_split (· == '-') ((squeezeDashes (t.map slugChar)).dropWhile (· == '-'))
    have stop := List.head?_dropWhile_not (· == '-') (squeezeDashes (t.map slugChar))
    rw [whole, List.head?_append, show dropEndWhile _ _ = slug t from rfl, first] at stop
    simp at stop
  stop last := by
    obtain ⟨v, -, -, stop⟩ := dropEndWhile_split (· == '-') ((squeezeDashes (t.map slugChar)).dropWhile (· == '-'))
    simpa using stop '-' last

theorem slug_of_slugged (slugged : Slugged t) : slug t = t := by
  have kept : t.map slugChar = t := (List.map_congr_left slugged.kept).trans (List.map_id' t)
  have start : t.dropWhile (· == '-') = t := by
    cases t with
    | nil => rfl
    | cons c t => exact List.dropWhile_cons_of_neg (by simpa using slugged.start)
  have stop : dropEndWhile (· == '-') t = t := by
    apply dropEndWhile_of_last
    intro c last
    simpa using fun dash : c = '-' => slugged.stop (dash ▸ last)
  rw [slug, kept, squeezeDashes_of_spaced slugged.spaced, start, stop]

/-- A slug is its own slug. -/
theorem slug_slug (t : Text) : slug (slug t) = slug t := slug_of_slugged (slugged_slug t)

theorem slash_notMem_slug (t : Text) : '/' ∉ slug t := fun inside =>
  absurd ((slugged_slug t).kept '/' inside) (by decide)

end NotebookPages.Text
