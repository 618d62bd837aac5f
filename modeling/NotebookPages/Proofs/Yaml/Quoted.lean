import NotebookPages.Document.Header
import NotebookPages.Proofs.Text.Words
import NotebookPages.Yaml.Scalar

/-! Scanning a quoted scalar undoes the escapes of a header value. A value is written word by word, with single spaces in
between, and words hold no blanks, so the scan never meets a line break and folds nothing. -/

namespace NotebookPages.Yaml

variable {c : Char} {word : Text} {column : Nat}

theorem isWhite_of_solid (solid : Text.isBlank c = false) : isWhite c = false := by
  rw [isWhite, Bool.or_eq_false_iff, beq_eq_false_iff_ne, beq_eq_false_iff_ne]
  constructor
  · rintro rfl
    exact absurd solid (by decide)
  · rintro rfl
    exact absurd solid (by decide)

theorem isBreak_of_solid (solid : Text.isBlank c = false) : isBreak c = false := by
  rw [isBreak, Bool.or_eq_false_iff, Bool.or_eq_false_iff, beq_eq_false_iff_ne, beq_eq_false_iff_ne, beq_eq_false_iff_ne]
  refine ⟨⟨?_, ?_⟩, ?_⟩
  all_goals
    rintro rfl
    exact absurd solid (by decide)

theorem length_escapeChar_pos (c : Char) : 0 < (Header.escapeChar c).length := by
  unfold Header.escapeChar
  split <;> simp

/-- An escaped character is read as the character, after what was held back before it. -/
theorem scanQuoted?_escapeChar (solid : Text.isBlank c = false) (inside : 0 < column) (done rest : Text) (gap : Gap) :
    scanQuoted? '"' 0 done gap column (Header.escapeChar c ++ rest) =
      scanQuoted? '"' 0 (c :: gap.content.reverse ++ done) {} (column + (Header.escapeChar c).length) rest := by
  have later : (column == 0) = false := by simp; omega
  have white := isWhite_of_solid solid
  have newline := isBreak_of_solid solid
  unfold Header.escapeChar
  by_cases backslash : c = '\\'
  · subst backslash
    simp [scanQuoted?, isWhite, isBreak, later, escape?]
  · by_cases quote : c = '"'
    · subst quote
      simp [scanQuoted?, isWhite, isBreak, later, escape?]
    · simp [scanQuoted?, white, newline, later, backslash, quote]

theorem scanQuoted?_word (solid : ∀ c ∈ word, Text.isBlank c = false) (some : word ≠ []) (inside : 0 < column)
    (done rest : Text) (gap : Gap) :
    ∃ column', 0 < column' ∧ scanQuoted? '"' 0 done gap column (word.flatMap Header.escapeChar ++ rest) =
      scanQuoted? '"' 0 (word.reverse ++ (gap.content.reverse ++ done)) {} column' rest := by
  induction word generalizing done gap column with
  | nil => exact absurd rfl some
  | cons c word ih =>
    have first := length_escapeChar_pos c
    rw [List.flatMap_cons, List.append_assoc, scanQuoted?_escapeChar (solid c List.mem_cons_self) inside]
    by_cases last : word = []
    · subst last
      exact ⟨_, by omega, rfl⟩
    · have later : 0 < column + (Header.escapeChar c).length := by omega
      obtain ⟨column', inside', same⟩ :=
        ih (fun d member => solid d (List.mem_cons_of_mem c member)) last later (c :: gap.content.reverse ++ done) {}
      exact ⟨column', inside', by rw [same]; simp [Gap.content]⟩

theorem scanQuoted?_words {words : List Text} (solid : ∀ word ∈ words, word ≠ [] ∧ ∀ c ∈ word, Text.isBlank c = false)
    (inside : 0 < column) (done rest : Text) (gap : Gap) :
    scanQuoted? '"' 0 done gap column (Text.joinWith [' '] (words.map (·.flatMap Header.escapeChar)) ++ '"' :: rest) =
      some (done.reverse ++ (gap.content ++ Text.joinWith [' '] words), rest) := by
  have later : ∀ {column : Nat}, 0 < column → (column == 0) = false := by
    intro column inside
    simp
    omega
  induction words generalizing done gap column with
  | nil => simp [Text.joinWith, List.intercalate, scanQuoted?, isWhite, isBreak, later inside]
  | cons word words ih =>
    obtain ⟨some, plain⟩ := solid word List.mem_cons_self
    have others := fun word member => solid word (List.mem_cons_of_mem _ member)
    by_cases last : words = []
    · subst last
      obtain ⟨column', inside', same⟩ := scanQuoted?_word plain some inside done ('"' :: rest) gap
      rw [List.map_singleton, Text.joinWith_singleton, same]
      simpa [Text.joinWith, List.intercalate, Gap.content] using ih others inside' (word.reverse ++ (gap.content.reverse ++ done)) {}
    · obtain ⟨column', inside', same⟩ := scanQuoted?_word plain some inside done
        (' ' :: (Text.joinWith [' '] (words.map (·.flatMap Header.escapeChar)) ++ '"' :: rest)) gap
      have space : scanQuoted? '"' 0 (word.reverse ++ (gap.content.reverse ++ done)) {} column'
            (' ' :: (Text.joinWith [' '] (words.map (·.flatMap Header.escapeChar)) ++ '"' :: rest)) =
          scanQuoted? '"' 0 (word.reverse ++ (gap.content.reverse ++ done)) ⟨[' '], none, []⟩ (column' + 1)
            (Text.joinWith [' '] (words.map (·.flatMap Header.escapeChar)) ++ '"' :: rest) := rfl
      rw [List.map_cons, Text.joinWith_cons _ _ (by simpa using last), Text.joinWith_cons _ _ last, List.append_assoc,
        List.append_assoc, List.singleton_append, List.cons_append, same, space,
        ih others (Nat.succ_pos column')]
      simp [Gap.content]

end NotebookPages.Yaml

namespace NotebookPages.Header

/-- The value on one line: every run of blanks and control characters is one space, and none is at an end. -/
def onOneLine (value : Text) : Text := Text.trim (Text.squeeze (fun c => Text.isBlank c || Text.isControl c) value)

theorem onOneLine_eq (value : Text) :
    onOneLine value = Text.joinWith [' '] (Text.wordsBy (fun c => Text.isBlank c || Text.isControl c) value) :=
  Text.trim_squeeze (fun c blank => by rw [blank, Bool.true_or]) value

/-- The scan of an escaped value gives the value on one line, and what follows the quote that closes it. -/
theorem scanQuoted?_escape (value rest : Text) {column : Nat} (inside : 0 < column) :
    Yaml.scanQuoted? '"' 0 [] {} column (escape value ++ '"' :: rest) = some (onOneLine value, rest) := by
  have solid : ∀ word ∈ Text.wordsBy (fun c => Text.isBlank c || Text.isControl c) value,
      word ≠ [] ∧ ∀ c ∈ word, Text.isBlank c = false := by
    intro word member
    refine ⟨Text.ne_nil_of_mem_wordsBy member, fun c here => ?_⟩
    exact (Bool.or_eq_false_iff.mp (Text.not_sep_of_mem_wordsBy member c here)).1
  rw [onOneLine_eq]
  exact Yaml.scanQuoted?_words solid inside [] rest {}

end NotebookPages.Header
