import NotebookPages.Text.Basic
import Mathlib.Data.List.TakeWhile

/-! A trimmed text is the text without blanks at its ends. -/

namespace NotebookPages.Text

variable {t u v : Text}

/-- What holds of each character of a given text is decided along the text. -/
theorem forall_mem_of_all {P : Char → Prop} [DecidablePred P] (all : t.all (fun c => decide (P c)) = true) : ∀ c ∈ t, P c :=
  fun c inside => of_decide_eq_true (List.all_eq_true.mp all c inside)

def Blank (t : Text) : Prop := ∀ c ∈ t, isBlank c = true

theorem blank_nil : Blank [] := by simp [Blank]

theorem allBlank_iff : allBlank t = true ↔ Blank t := List.all_eq_true

/-- The text neither begins nor ends with a blank. -/
structure Trimmed (t : Text) : Prop where
  start : ∀ c, t.head? = some c → isBlank c = false
  stop : ∀ c, t.getLast? = some c → isBlank c = false

theorem not_isBlank_of_isLetter {c : Char} (letter : isLetter c = true) : isBlank c = false := by
  have bounds : (97 ≤ c.toNat ∧ c.toNat ≤ 122) ∨ (65 ≤ c.toNat ∧ c.toNat ≤ 90) := by
    simpa [isLetter, Char.le_def, UInt32.le_iff_toNat_le] using letter
  simp only [isBlank, Bool.or_eq_false_iff, Bool.and_eq_false_iff, decide_eq_false_iff_not, beq_eq_false_iff_ne]
  omega

theorem not_isLetter_of_isBlank {c : Char} (blank : isBlank c = true) : isLetter c = false := by
  cases letter : isLetter c with
  | false => rfl
  | true =>
    rw [not_isBlank_of_isLetter letter] at blank
    cases blank

theorem not_isPunctuation_of_isBlank {c : Char} (blank : isBlank c = true) : isPunctuation c = false := by
  cases mark : isPunctuation c with
  | false => rfl
  | true =>
    have bounds : 33 ≤ c.toNat ∧ c.toNat ≤ 126 := by
      have range : ('!' ≤ c ∧ c ≤ '~') ∧ isAlphanumeric c = false := by simpa [isPunctuation] using mark
      simpa [Char.le_def, UInt32.le_iff_toNat_le] using range.1
    simp only [isBlank, Bool.or_eq_true, Bool.and_eq_true, decide_eq_true_eq, beq_iff_eq] at blank
    omega

/-- What is dropped at the end of a list, and where that stops. -/
theorem dropEnd_split {α : Type} (p : α → Bool) (l : List α) : ∃ v, l = (l.reverse.dropWhile p).reverse ++ v ∧
    (∀ c ∈ v, p c = true) ∧ ∀ c, (l.reverse.dropWhile p).reverse.getLast? = some c → p c = false := by
  refine ⟨(l.reverse.takeWhile p).reverse, ?_, fun c inside => ?_, fun c last => ?_⟩
  · rw [← List.reverse_append, List.takeWhile_append_dropWhile, List.reverse_reverse]
  · exact List.mem_takeWhile_imp (List.mem_reverse.mp inside)
  · rw [List.getLast?_reverse] at last
    have stop := List.head?_dropWhile_not p l.reverse
    rw [last] at stop
    simpa using stop

theorem dropEndWhile_split (p : Char → Bool) (t : Text) :
    ∃ v, t = dropEndWhile p t ++ v ∧ (∀ c ∈ v, p c = true) ∧ ∀ c, (dropEndWhile p t).getLast? = some c → p c = false :=
  dropEnd_split p t

theorem dropEndWhile_of_last {p : Char → Bool} (last : ∀ c, t.getLast? = some c → p c = false) : dropEndWhile p t = t := by
  rw [dropEndWhile]
  cases shape : t.reverse with
  | nil => rw [List.dropWhile_nil, ← shape, List.reverse_reverse]
  | cons c rest =>
    have stop := last c (by rw [List.getLast?_eq_head?_reverse, shape]; rfl)
    rw [List.dropWhile_cons_of_neg (by simp [stop]), ← shape, List.reverse_reverse]

theorem trimStart_split (t : Text) :
    ∃ u, t = u ++ trimStart t ∧ Blank u ∧ ∀ c, (trimStart t).head? = some c → isBlank c = false := by
  refine ⟨t.takeWhile isBlank, List.takeWhile_append_dropWhile.symm, fun c inside => List.mem_takeWhile_imp inside, ?_⟩
  intro c first
  have stop := List.head?_dropWhile_not isBlank t
  rw [show t.dropWhile isBlank = trimStart t from rfl, first] at stop
  simpa using stop

theorem trim_split (t : Text) : ∃ u v, t = u ++ (trim t ++ v) ∧ Blank u ∧ Blank v ∧ Trimmed (trim t) := by
  obtain ⟨u, whole, before, first⟩ := trimStart_split t
  obtain ⟨v, body, after, last⟩ := dropEndWhile_split isBlank (trimStart t)
  refine ⟨u, v, ?_, before, after, ?_, last⟩
  · rw [trim, trimEnd, ← body]
    exact whole
  · intro c start
    apply first c
    rw [body]
    simp only [trim, trimEnd] at start
    simp [start]

theorem trimmed_trim (t : Text) : Trimmed (trim t) := by
  obtain ⟨_, _, _, _, _, trimmed⟩ := trim_split t
  exact trimmed

theorem infix_trim (t : Text) : trim t <:+: t := by
  obtain ⟨u, v, whole, -⟩ := trim_split t
  exact ⟨u, v, by rw [List.append_assoc, ← whole]⟩

theorem trimStart_of_blank (before : Blank u) : trimStart (u ++ t) = trimStart t := by
  simp only [trimStart]
  rw [List.dropWhile_append_of_pos before]

theorem trimEnd_of_blank (after : Blank v) : trimEnd (t ++ v) = trimEnd t := by
  simp only [trimEnd, dropEndWhile, List.reverse_append]
  rw [List.dropWhile_append_of_pos fun c inside => after c (List.mem_reverse.mp inside)]

theorem trimStart_append (solid : trimStart t ≠ []) : trimStart (t ++ v) = trimStart t ++ v := by
  unfold trimStart at solid ⊢
  rw [List.dropWhile_append, if_neg (by simpa using solid)]

theorem trimStart_eq_nil_iff : trimStart t = [] ↔ Blank t := by
  simp [trimStart, Blank, List.dropWhile_eq_nil_iff]

theorem trimEnd_eq_nil_iff : trimEnd t = [] ↔ Blank t := by
  simp [trimEnd, dropEndWhile, Blank, List.dropWhile_eq_nil_iff]

theorem trimEnd_split (t : Text) : ∃ v, t = trimEnd t ++ v ∧ Blank v := by
  obtain ⟨v, whole, blank, -⟩ := dropEndWhile_split isBlank t
  exact ⟨v, whole, blank⟩

theorem trimEnd_append (solid : ¬ Blank v) : trimEnd (t ++ v) = t ++ trimEnd v := by
  have kept : v.reverse.dropWhile isBlank ≠ [] := by
    intro none
    apply solid
    intro c inside
    exact List.dropWhile_eq_nil_iff.mp none c (List.mem_reverse.mpr inside)
  unfold trimEnd dropEndWhile
  rw [List.reverse_append, List.dropWhile_append, if_neg (by simpa using kept), List.reverse_append, List.reverse_reverse]

theorem trimEnd_trimEnd (t : Text) : trimEnd (trimEnd t) = trimEnd t := by
  obtain ⟨v, whole, blank⟩ := trimEnd_split t
  have same := trimEnd_of_blank (t := trimEnd t) blank
  rw [← whole] at same
  exact same.symm

theorem trim_eq_nil_of_blank (blank : Blank t) : trim t = [] := by
  rw [trim, trimStart_eq_nil_iff.mpr blank]
  rfl

theorem Blank.append (first : Blank t) (second : Blank u) : Blank (t ++ u) := by
  intro c inside
  rcases List.mem_append.mp inside with inside | inside
  · exact first c inside
  · exact second c inside

theorem trim_of_blank (before : Blank u) (after : Blank v) : trim (u ++ (t ++ v)) = trim t := by
  rw [trim, trim, trimStart_of_blank before]
  by_cases blank : Blank t
  · rw [trimStart_eq_nil_iff.mpr blank, trimStart_eq_nil_iff.mpr (blank.append after)]
  · rw [trimStart_append (fun empty => blank (trimStart_eq_nil_iff.mp empty)), trimEnd_of_blank after]

theorem trim_of_trimmed (trimmed : Trimmed t) : trim t = t := by
  have start : t.dropWhile isBlank = t := by
    cases t with
    | nil => rfl
    | cons c t => rw [List.dropWhile_cons, trimmed.start c rfl]; rfl
  rw [trim, trimStart, start, trimEnd, dropEndWhile_of_last trimmed.stop]

theorem trim_trim (t : Text) : trim (trim t) = trim t := trim_of_trimmed (trimmed_trim t)

theorem trim_of_solid (solid : ∀ c ∈ t, isBlank c = false) : trim t = t :=
  trim_of_trimmed ⟨fun c first => solid c (List.mem_of_mem_head? first), fun c last => solid c (List.mem_of_getLast? last)⟩

end NotebookPages.Text
