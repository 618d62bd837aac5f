import NotebookPages.Proofs.Text.Lines
import NotebookPages.Proofs.Text.Trim

/-! A text on one line. To squeeze a text and trim it comes to the same as to join its words by spaces, so a value that was
written word by word is the value on one line. -/

namespace NotebookPages.Text

variable {sep : Char → Bool} {c : Char} {t rest word : Text} {words : List Text}

/-- Every run of separators becomes one space, which stands where the run ends. -/
def squeeze (sep : Char → Bool) : Text → Text
  | [] => []
  | c :: rest =>
    if sep c then if rest.head?.any sep then squeeze sep rest else ' ' :: squeeze sep rest
    else c :: squeeze sep rest

theorem wordsBy_sep (here : sep c = true) (rest : Text) : wordsBy sep (c :: rest) = wordsBy sep rest := by
  simp [wordsBy, split, here]

theorem wordsBy_last (plain : sep c = false) (ends : rest.head?.all sep = true) :
    wordsBy sep (c :: rest) = [c] :: wordsBy sep rest := by
  cases rest with
  | nil => simp [wordsBy, split, plain]
  | cons d rest =>
    have next : sep d = true := ends
    simp [wordsBy, split, plain, next]

theorem wordsBy_next (plain : sep c = false) (goes : rest.head?.any (!sep ·) = true) :
    ∃ word words, wordsBy sep rest = word :: words ∧ wordsBy sep (c :: rest) = (c :: word) :: words := by
  cases rest with
  | nil => cases goes
  | cons d rest =>
    have next : sep d = false := by simpa using goes
    cases shape : split sep rest with
    | nil => exact absurd shape (split_ne_nil rest)
    | cons part parts => exact ⟨d :: part, parts.filter (!·.isEmpty), by simp [wordsBy, split, next, shape],
        by simp [wordsBy, split, plain, next, shape]⟩

theorem ne_nil_of_mem_wordsBy (member : word ∈ wordsBy sep t) : word ≠ [] := by
  simpa using (List.mem_filter.mp member).2

theorem not_sep_of_mem_wordsBy (member : word ∈ wordsBy sep t) : ∀ c ∈ word, sep c = false :=
  not_sep_of_mem_split (List.mem_filter.mp member).1

theorem mem_wordsBy_iff (plain : sep c = false) : (∃ word ∈ wordsBy sep t, c ∈ word) ↔ c ∈ t := by
  rw [← mem_split_iff plain]
  constructor
  · rintro ⟨word, member, inside⟩
    exact ⟨word, (List.mem_filter.mp member).1, inside⟩
  · rintro ⟨part, member, inside⟩
    exact ⟨part, List.mem_filter.mpr ⟨member, by simpa using List.ne_nil_of_mem inside⟩, inside⟩

/-- Blanks apart, a squeezed text is its words. What stands before them is known from the start of the text. -/
theorem squeeze_eq (sep : Char → Bool) (t : Text) : ∃ v, Blank v ∧
    squeeze sep t = (if t.head?.any sep then [' '] else []) ++ (joinWith [' '] (wordsBy sep t) ++ v) := by
  have space : isBlank ' ' = true := by decide
  induction t with
  | nil => exact ⟨[], by simp [Blank], rfl⟩
  | cons c rest ih =>
    obtain ⟨v, after, body⟩ := ih
    by_cases here : sep c = true
    · refine ⟨v, after, ?_⟩
      rw [squeeze, if_pos here, body, wordsBy_sep here, show (c :: rest).head?.any sep = true from here]
      split <;> rfl
    · have plain : sep c = false := by simpa using here
      rw [squeeze, if_neg here, body, show (c :: rest).head?.any sep = false from plain]
      by_cases ends : rest.head?.all sep = true
      · rw [wordsBy_last plain ends]
        by_cases none : wordsBy sep rest = []
        · refine ⟨(if rest.head?.any sep then [' '] else []) ++ v, Blank.append ?_ after, ?_⟩
          · split <;> simp [Blank, space]
          · simp [none, joinWith, List.intercalate]
        · have some : rest.head?.any sep = true := by
            cases rest with
            | nil => exact absurd rfl none
            | cons d rest => exact ends
          exact ⟨v, after, by rw [joinWith_cons _ _ none]; simp [some]⟩
      · have goes : rest.head?.any (!sep ·) = true := by
          cases rest with
          | nil => exact absurd rfl ends
          | cons d rest => simpa using ends
        have stays : rest.head?.any sep = false := by
          cases rest with
          | nil => rfl
          | cons d rest => simpa using ends
        obtain ⟨word, words, shape, longer⟩ := wordsBy_next plain goes
        refine ⟨v, after, ?_⟩
        rw [shape, longer, stays]
        cases words <;> simp [joinWith, List.intercalate]

theorem trimmed_words (solid : ∀ word ∈ words, word ≠ [] ∧ ∀ c ∈ word, isBlank c = false) : Trimmed (joinWith [' '] words) := by
  constructor
  · intro c first
    cases words with
    | nil => cases first
    | cons word words =>
      obtain ⟨some, plain⟩ := solid word List.mem_cons_self
      obtain ⟨d, word, rfl⟩ := List.exists_cons_of_ne_nil some
      obtain rfl : d = c := by cases words <;> simpa [joinWith, List.intercalate] using first
      exact plain d List.mem_cons_self
  · intro c last
    rcases List.eq_nil_or_concat words with rfl | ⟨front, word, rfl⟩
    · cases last
    · rw [List.concat_eq_append] at last solid
      obtain ⟨some, plain⟩ := solid word (by simp)
      have end' : word.getLast? = Option.some c := by
        by_cases alone : front = []
        · simpa [alone] using last
        · rw [joinWith_append _ alone (List.cons_ne_nil word []), joinWith_singleton, ← List.append_assoc,
            List.getLast?_append] at last
          obtain ⟨d, stop⟩ := Option.ne_none_iff_exists'.mp (mt List.getLast?_eq_none_iff.mp some)
          rwa [stop, Option.some_or, ← stop] at last
      exact plain c (List.mem_of_getLast? end')

/-- The value on one line is its words with spaces between them. -/
theorem trim_squeeze (blank : ∀ c, isBlank c = true → sep c = true) (t : Text) :
    trim (squeeze sep t) = joinWith [' '] (wordsBy sep t) := by
  have solid : ∀ word ∈ wordsBy sep t, word ≠ [] ∧ ∀ c ∈ word, isBlank c = false := by
    intro word member
    refine ⟨ne_nil_of_mem_wordsBy member, fun c inside => ?_⟩
    rw [← Bool.not_eq_true]
    intro here
    exact absurd (blank c here) (by simp [not_sep_of_mem_wordsBy member c inside])
  obtain ⟨v, after, whole⟩ := squeeze_eq sep t
  rw [whole, trim_of_blank (by split <;> simp [Blank, isBlank]) after, trim_of_trimmed (trimmed_words solid)]

end NotebookPages.Text
