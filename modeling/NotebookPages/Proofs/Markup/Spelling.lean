import NotebookPages.Markup.Tag
import NotebookPages.Proofs.Text.Cut

/-! The ways to spell a tag. What a tag reader accepts is one of them, so facts about tags and their
sources are proved on spellings and not on the reader. -/

namespace NotebookPages

def Gap (g : Text) : Prop := ∀ c ∈ g, Text.isMarkupBlank c = true

namespace Attribute

def IsQuote (q : Char) : Prop := q = '"' ∨ q = '\''

inductive Spelling : Text → Attribute → Prop where
  | alone {name : Text} (some : name ≠ []) (chars : ∀ c ∈ name, isNameChar c = true) :
      Spelling name ⟨name, none⟩
  | quoted {name g h v : Text} {q : Char} (some : name ≠ []) (chars : ∀ c ∈ name, isNameChar c = true)
      (before : Gap g) (after : Gap h) (quote : IsQuote q) (inside : q ∉ v) :
      Spelling (name ++ (g ++ '=' :: (h ++ q :: (v ++ [q])))) ⟨name, .some (q, v)⟩
  | bare {name g h v : Text} (some : name ≠ []) (chars : ∀ c ∈ name, isNameChar c = true)
      (before : Gap g) (after : Gap h) (plain : ∀ c ∈ v, isBareChar c = true ∧ isQuoteworthy c = false) :
      Spelling (name ++ (g ++ '=' :: (h ++ v))) ⟨name, .some ('"', v)⟩

structure WellFormed (a : Attribute) : Prop where
  some : a.name ≠ []
  chars : ∀ c ∈ a.name, isNameChar c = true
  value : ∀ q v, a.value = .some (q, v) → IsQuote q ∧ q ∉ v

theorem Spelling.wellFormed {source : Text} {a : Attribute} (spelled : Spelling source a) : a.WellFormed := by
  cases spelled with
  | alone some chars => exact ⟨some, chars, by simp⟩
  | quoted some chars _ _ quote inside =>
    refine ⟨some, chars, ?_⟩
    rintro _ _ ⟨⟩
    exact ⟨quote, inside⟩
  | bare some chars _ _ plain =>
    refine ⟨some, chars, ?_⟩
    rintro _ _ ⟨⟩
    refine ⟨Or.inl rfl, fun inside => ?_⟩
    exact absurd (plain _ inside).2 (by decide)

theorem readValue?_sound {s r v : Text} {q : Char} (read : readValue? s = some ((q, v), r)) :
    ∃ h, Gap h ∧ ((s = h ++ q :: (v ++ q :: r) ∧ IsQuote q ∧ q ∉ v) ∨
      (s = h ++ (v ++ r) ∧ q = '"' ∧ ∀ c ∈ v, isBareChar c = true ∧ isQuoteworthy c = false)) := by
  have shape : s.takeWhile Text.isMarkupBlank ++ s.dropWhile Text.isMarkupBlank = s :=
    List.takeWhile_append_dropWhile
  have gap : Gap (s.takeWhile Text.isMarkupBlank) := fun c inside => List.mem_takeWhile_imp inside
  refine ⟨_, gap, ?_⟩
  unfold readValue? at read
  split at read
  next => cases read
  next c rest body =>
    rw [body] at shape
    split at read
    next quote =>
      split at read
      next => cases read
      next closer after ends =>
        simp only [Option.some.injEq, Prod.mk.injEq] at read
        obtain ⟨⟨rfl, rfl⟩, rfl⟩ := read
        have whole : rest.takeWhile (· != c) ++ closer :: after = rest := by
          rw [← ends]
          exact List.takeWhile_append_dropWhile
        have closes : closer = c := by
          have stop := List.head?_dropWhile_not (· != c) rest
          rw [ends] at stop
          simpa using stop
        subst closes
        refine Or.inl ⟨by rw [whole, shape], by simpa [IsQuote] using quote, fun inside => ?_⟩
        exact absurd (List.mem_takeWhile_imp inside) (by simp)
    next =>
      simp only at read
      split at read
      next => cases read
      next plain =>
        simp only [Option.some.injEq, Prod.mk.injEq] at read
        obtain ⟨⟨rfl, rfl⟩, rfl⟩ := read
        refine Or.inr ⟨by rw [List.takeWhile_append_dropWhile, shape], rfl, fun d inside => ?_⟩
        refine ⟨List.mem_takeWhile_imp inside, ?_⟩
        simp only [Bool.or_eq_true, not_or, Bool.not_eq_true, List.any_eq_false] at plain
        simpa using plain.2 d inside

theorem read?_sound {s r : Text} {a : Attribute} (read : read? s = some (a, r)) :
    ∃ source, s = source ++ r ∧ Spelling source a := by
  have shape : s.takeWhile isNameChar ++ s.dropWhile isNameChar = s := List.takeWhile_append_dropWhile
  have chars : ∀ c ∈ s.takeWhile isNameChar, isNameChar c = true := fun c inside => List.mem_takeWhile_imp inside
  unfold read? at read
  simp only at read
  split at read
  next => cases read
  next named =>
    have some : s.takeWhile isNameChar ≠ [] := by simpa using named
    split at read
    next after equals =>
      obtain ⟨⟨⟨q, v⟩, rest⟩, value, same⟩ := Option.map_eq_some_iff.mp read
      obtain ⟨rfl, rfl⟩ := Prod.mk.inj same
      have gap : Gap ((s.dropWhile isNameChar).takeWhile Text.isMarkupBlank) :=
        fun c inside => List.mem_takeWhile_imp inside
      have spaced := (List.takeWhile_append_dropWhile (p := Text.isMarkupBlank) (l := s.dropWhile isNameChar)).symm
      have whole := shape.symm
      rw [spaced, equals] at whole
      obtain ⟨h, after', ⟨rfl, quote, inside⟩ | ⟨rfl, rfl, plain⟩⟩ := readValue?_sound value
      · exact ⟨_, by simpa using whole, .quoted some chars gap after' quote inside⟩
      · exact ⟨_, by simpa using whole, .bare some chars gap after' plain⟩
    next =>
      simp only [Option.some.injEq, Prod.mk.injEq] at read
      obtain ⟨rfl, rfl⟩ := read
      exact ⟨_, shape.symm, .alone some chars⟩

end Attribute

namespace Tag

/-- The sources of what follows the name of a tag: its attributes, and whether a slash precedes its end. -/
inductive TailSpelling (closing : Bool) : Text → List Attribute → Bool → Prop where
  | stop {g : Text} (gap : Gap g) : TailSpelling closing (g ++ ['>']) [] false
  | slash {g : Text} (gap : Gap g) (opening : closing = false) : TailSpelling closing (g ++ ['/', '>']) [] true
  | more {g source tail : Text} {a : Attribute} {as : List Attribute} {slash : Bool} (gap : Gap g)
      (some : g ≠ []) (opening : closing = false) (first : Attribute.Spelling source a)
      (others : TailSpelling closing tail as slash) : TailSpelling closing (g ++ (source ++ tail)) (a :: as) slash

/-- The sources of a tag. -/
inductive Spelling : Text → Tag → Prop where
  | tag {closing slash : Bool} {name tail : Text} {attributes : List Attribute}
      (letter : name.head?.any Text.isLetter = true) (chars : ∀ c ∈ name, isNameChar c = true)
      (rest : TailSpelling closing tail attributes slash) :
      Spelling ('<' :: ((if closing then ['/'] else []) ++ (name ++ tail)))
        ⟨name, kindOf closing slash name, attributes, slash⟩

theorem readTail?_sound {closing : Bool} {fuel : Nat} {s r : Text} {as : List Attribute} {slash : Bool}
    (read : readTail? closing fuel s = some (as, slash, r)) :
    ∃ tail, s = tail ++ r ∧ TailSpelling closing tail as slash := by
  induction fuel generalizing s r as slash with
  | zero => cases read
  | succ fuel ih =>
    have shape : s.takeWhile Text.isMarkupBlank ++ s.dropWhile Text.isMarkupBlank = s :=
      List.takeWhile_append_dropWhile
    have gap : Gap (s.takeWhile Text.isMarkupBlank) := fun c inside => List.mem_takeWhile_imp inside
    unfold readTail? at read
    split at read
    next => cases read
    next rest body =>
      simp only [Option.some.injEq, Prod.mk.injEq] at read
      obtain ⟨rfl, rfl, rfl⟩ := read
      exact ⟨_, by simpa [body] using shape.symm, .stop gap⟩
    next rest body =>
      split at read
      next => cases read
      next opening =>
        simp only [Option.some.injEq, Prod.mk.injEq] at read
        obtain ⟨rfl, rfl, rfl⟩ := read
        exact ⟨_, by simpa [body] using shape.symm, .slash gap (by simpa using opening)⟩
    next =>
      split at read
      next => cases read
      next allowed =>
        simp only [Bool.or_eq_true, not_or, Bool.not_eq_true, Bool.not_eq_false'] at allowed
        split at read
        next => cases read
        next a rest found =>
          obtain ⟨⟨others, ended, after⟩, later, same⟩ := Option.map_eq_some_iff.mp read
          simp only [Prod.mk.injEq] at same
          obtain ⟨rfl, rfl, rfl⟩ := same
          obtain ⟨source, split, first⟩ := Attribute.read?_sound found
          obtain ⟨tail, rfl, spelled⟩ := ih later
          have some : s.takeWhile Text.isMarkupBlank ≠ [] := by
            cases s with
            | nil => simp at allowed
            | cons c s =>
              have blank : Text.isMarkupBlank c = true := by simpa using allowed.2
              simp [blank]
          exact ⟨_, by simpa [split] using shape.symm, .more gap some allowed.1 first spelled⟩

theorem readNamed?_sound {closing : Bool} {s r : Text} {t : Tag} (read : readNamed? closing s = some (t, r)) :
    ∃ source, s = source ++ r ∧ Spelling ('<' :: ((if closing then ['/'] else []) ++ source)) t := by
  unfold readNamed? at read
  split at read
  next letter =>
    obtain ⟨⟨as, slash, rest⟩, tail, same⟩ := Option.map_eq_some_iff.mp read
    obtain ⟨rfl, rfl⟩ := Prod.mk.inj same
    have shape : s.takeWhile isNameChar ++ s.dropWhile isNameChar = s := List.takeWhile_append_dropWhile
    obtain ⟨spelled, split, valid⟩ := readTail?_sound tail
    rw [split] at shape
    refine ⟨_, by simpa using shape.symm, .tag ?_ (fun c inside => List.mem_takeWhile_imp inside) valid⟩
    cases s with
    | nil => simp at letter
    | cons c s =>
      have first : Text.isLetter c = true := by simpa using letter
      simp [isNameChar, Text.isAlphanumeric, first]
  next => cases read

theorem read?_sound {s r : Text} {t : Tag} (read : read? s = some (t, r)) :
    ∃ source, s = source ++ r ∧ Spelling source t := by
  unfold read? at read
  split at read
  next rest =>
    obtain ⟨source, rfl, spelled⟩ := readNamed?_sound read
    exact ⟨_, by simp, spelled⟩
  next rest _ =>
    obtain ⟨source, rfl, spelled⟩ := readNamed?_sound read
    exact ⟨_, by simp, spelled⟩
  next => cases read

theorem TailSpelling.closes {closing slash : Bool} {tail : Text} {as : List Attribute}
    (spelled : TailSpelling closing tail as slash) : ∃ front, tail = front ++ ['>'] := by
  induction spelled with
  | @stop g _ => exact ⟨g, rfl⟩
  | @slash g _ _ => exact ⟨g ++ ['/'], by simp⟩
  | @more g source _ _ _ _ _ _ _ _ _ ih =>
    obtain ⟨front, rfl⟩ := ih
    exact ⟨g ++ (source ++ front), by simp⟩

theorem Spelling.closes {source : Text} {t : Tag} (spelled : Spelling source t) :
    ∃ front, source = '<' :: (front ++ ['>']) := by
  cases spelled with
  | @tag closing _ name _ _ _ _ rest =>
    obtain ⟨front, rfl⟩ := rest.closes
    exact ⟨(if closing then ['/'] else []) ++ (name ++ front), by simp⟩

end Tag
end NotebookPages
