import NotebookPages.Yaml.Value
import Mathlib.Data.Nat.Digits.Defs

/-! Plain scalars: a word is scanned to the colon or the line end behind it, and an integer that was written in decimal
is read as that integer. -/

namespace NotebookPages.Yaml

variable {c : Char} {word rest done digits : Text} {indent column : Nat}

theorem scanPlain?_word (plain : ∀ c ∈ word, isWhite c = false ∧ isBreak c = false ∧ c ≠ ':') :
    scanPlain? false indent done {} column (word ++ rest) =
      scanPlain? false indent (word.reverse ++ done) {} (column + word.length) rest := by
  induction word generalizing done column with
  | nil => rfl
  | cons c word ih =>
    obtain ⟨white, newline, colon⟩ := plain c List.mem_cons_self
    have key : (c == ':') = false := beq_false_of_ne colon
    rw [List.cons_append, scanPlain?]
    simp only [white, newline, key, Gap.isEmpty, Gap.content, List.isEmpty_nil, Option.isNone_none, Bool.and_self, Bool.not_true,
      Bool.false_and, Bool.false_eq_true, Bool.or_false, if_false, List.reverse_nil, List.cons_append, List.nil_append]
    rw [ih fun d member => plain d (List.mem_cons_of_mem c member)]
    simp [Nat.add_assoc, Nat.add_comm 1]

theorem scanPlain?_key (plain : ∀ c ∈ word, isWhite c = false ∧ isBreak c = false ∧ c ≠ ':') :
    scanPlain? false indent [] {} column (word ++ ':' :: ' ' :: rest) = some ⟨word, ':' :: ' ' :: rest, false⟩ := by
  rw [scanPlain?_word plain]
  simp [scanPlain?, isWhite, isBreak, Gap.isEmpty, atGap]

theorem scanPlain?_last (plain : ∀ c ∈ word, isWhite c = false ∧ isBreak c = false ∧ c ≠ ':') :
    scanPlain? false indent [] {} column (word ++ ['\n']) = some ⟨word, [], true⟩ := by
  rw [scanPlain?_word plain]
  simp [scanPlain?, isWhite, isBreak, Gap.addBreak]

namespace Value

theorem isDigit_eq (c : Char) : Text.isDigit c = c.isDigit := by
  rw [Text.isDigit, Char.isDigit, Bool.eq_iff_iff]
  simp [Char.le_def, ge_iff_le]

theorem digit?_of_isDigit (digit : Text.isDigit c = true) : digit? 10 c = some (c.toNat - 48) := by
  have bounds : 48 ≤ c.toNat ∧ c.toNat ≤ 57 := by simpa [Text.isDigit, Char.le_def, UInt32.le_iff_toNat_le] using digit
  rw [digit?, if_pos digit, Option.filter_some, if_pos (by simp; omega)]

theorem digits?_eq (all : ∀ c ∈ digits, Text.isDigit c = true) (some : digits ≠ []) :
    digits? 10 digits = Option.some (Nat.ofDigitChars 10 digits 0) := by
  have loop : ∀ n, digits.foldl (fun value c => do return (← value) * 10 + (← digit? 10 c)) (Option.some n) =
      Option.some (Nat.ofDigitChars 10 digits n) := by
    clear some
    induction digits with
    | nil => exact fun n => rfl
    | cons c digits ih =>
      intro n
      rw [List.foldl_cons, Nat.ofDigitChars_cons, ← ih fun d member => all d (List.mem_cons_of_mem c member)]
      simp [digit?_of_isDigit (all c List.mem_cons_self), Nat.mul_comm]
  rw [digits?, if_neg (by simpa using some), loop]

/-- A numeral has no zero in front. -/
theorem head?_toDigits {n : Nat} (positive : 0 < n) : (Nat.toDigits 10 n).head? ≠ some '0' := by
  induction n using Nat.strongRecOn with
  | _ n ih =>
    by_cases small : n < 10
    · rw [Nat.toDigits_of_lt_base small]
      have each : ∀ m < 10, 0 < m → [Nat.digitChar m].head? ≠ some '0' := by decide
      exact each n small positive
    · rw [Nat.toDigits_of_base_le (by decide) (by omega)]
      have front := ih (n / 10) (by omega) (by omega)
      obtain ⟨c, digits, shape⟩ := List.exists_cons_of_ne_nil (Nat.toDigits_ne_nil (b := 10) (n := n / 10))
      rw [shape] at front ⊢
      exact front

theorem isDigit_of_mem_numeral {n : Nat} (member : c ∈ Nat.toDigits 10 n) : Text.isDigit c = true := by
  rw [isDigit_eq]
  exact Nat.isDigit_of_mem_toDigits (by decide) (by decide) member

/-- No sign stands in front of a numeral. -/
theorem unsigned_numeral {n : Nat} (shape : Nat.toDigits 10 n = c :: digits) : c ≠ '-' ∧ c ≠ '+' := by
  have digit : Text.isDigit c = true := isDigit_of_mem_numeral (shape ▸ List.mem_cons_self)
  constructor
  · rintro rfl
    exact absurd digit (by decide)
  · rintro rfl
    exact absurd digit (by decide)

theorem isPadded_numeral (n : Nat) : isPadded (Nat.toDigits 10 n) = false := by
  by_cases zero : n = 0
  · subst zero
    decide
  · have front := head?_toDigits (Nat.pos_of_ne_zero zero)
    cases shape : Nat.toDigits 10 n with
    | nil => rfl
    | cons c digits =>
      obtain ⟨minus, plus⟩ := unsigned_numeral shape
      rw [shape] at front
      unfold isPadded
      split
      next rest same => exact absurd (List.cons.inj same).1 minus
      next rest same => exact absurd (List.cons.inj same).1 plus
      next =>
        have other : ¬ (c :: digits).head? = some '0' := front
        simpa using fun _ same => absurd (congrArg some same) other

theorem magnitude?_numeral (n : Nat) : magnitude? (Nat.toDigits 10 n) = some n := by
  have value : digits? 10 (Nat.toDigits 10 n) = some n := by
    rw [digits?_eq (fun c member => isDigit_of_mem_numeral member) Nat.toDigits_ne_nil, Nat.ofDigitChars_ten_toDigits]
  have mark : ∀ {c rest}, Nat.toDigits 10 n = '0' :: c :: rest → Text.isDigit c = true := by
    intro c rest shape
    exact isDigit_of_mem_numeral (n := n) (by rw [shape]; simp)
  unfold magnitude?
  rw [isPadded_numeral, value]
  split
  next rest shape => exact absurd (mark shape) (by decide)
  next rest shape => exact absurd (mark shape) (by decide)
  next rest shape => exact absurd (mark shape) (by decide)
  next => rfl

theorem ofInt_eq (n : Int) : Text.ofInt n = if 0 ≤ n then Nat.toDigits 10 n.toNat else '-' :: Nat.toDigits 10 (-n).toNat := by
  rw [Text.ofInt, show toString n = n.repr from rfl, Int.repr_eq_if]
  split <;> simp

theorem integer?_ofInt (n : Int) : integer? (Text.ofInt n) = some n := by
  rw [ofInt_eq]
  split
  next positive =>
    cases shape : Nat.toDigits 10 n.toNat with
    | nil => exact absurd shape Nat.toDigits_ne_nil
    | cons c digits =>
      obtain ⟨minus, plus⟩ := unsigned_numeral shape
      unfold integer?
      split
      next same => exact absurd (List.cons.inj same).1 minus
      next same => exact absurd (List.cons.inj same).1 plus
      next =>
        rw [← shape, magnitude?_numeral]
        simp [positive]
  next negative =>
    have same : -((-n).toNat : Int) = n := by omega
    rw [integer?, magnitude?_numeral]
    exact congrArg some same

theorem ofInt_first (n : Int) :
    ∃ c rest, Text.ofInt n = c :: rest ∧
      (Text.isDigit c = true ∨ c = '-' ∧ ∃ d digits, rest = d :: digits ∧ Text.isDigit d = true) := by
  have digits : ∀ m, ∃ d digits, Nat.toDigits 10 m = d :: digits ∧ Text.isDigit d = true := by
    intro m
    obtain ⟨d, digits, shape⟩ := List.exists_cons_of_ne_nil (Nat.toDigits_ne_nil (b := 10) (n := m))
    exact ⟨d, digits, shape, isDigit_of_mem_numeral (shape ▸ List.mem_cons_self)⟩
  rw [ofInt_eq]
  split
  next =>
    obtain ⟨d, rest, shape, digit⟩ := digits n.toNat
    exact ⟨d, rest, shape, Or.inl digit⟩
  next => exact ⟨_, _, rfl, Or.inr ⟨rfl, digits _⟩⟩

theorem mem_ofInt {n : Int} (member : c ∈ Text.ofInt n) : c = '-' ∨ Text.isDigit c = true := by
  rw [ofInt_eq] at member
  split at member
  · exact Or.inr (isDigit_of_mem_numeral member)
  · exact (List.mem_cons.mp member).imp_right isDigit_of_mem_numeral

/-- A decimal numeral is read as its number, if that takes no more than 64 bits. -/
theorem ofPlain?_ofInt {n : Int} (fits : fitsInteger n = true) : ofPlain? (Text.ofInt n) = some (integer n) := by
  have wide : fitsWide n = true := by
    simp only [fitsInteger, fitsWide, Bool.and_eq_true, decide_eq_true_eq] at fits ⊢
    norm_num at fits ⊢
    omega
  obtain ⟨c, rest, shape, first⟩ := ofInt_first n
  have other : ∀ text : Text, (text.head?.any fun d => d == '-' || Text.isDigit d) = false → (Text.ofInt n == text) = false := by
    intro text plain
    rw [beq_eq_false_iff_ne]
    rintro rfl
    rw [shape] at plain
    rcases first with digit | ⟨rfl, -⟩
    · simp [digit] at plain
    · cases plain
  have null : isNull (Text.ofInt n) = false := by
    simp only [isNull, List.contains_cons, List.contains_nil, Bool.or_eq_false_iff]
    refine ⟨by rw [shape]; rfl, other _ (by decide), other _ (by decide), other _ (by decide), other _ (by decide), trivial⟩
  have bool : bool? (Text.ofInt n) = none := by
    simp only [bool?, List.contains_cons, List.contains_nil, Bool.or_false]
    rw [other _ (by decide), other _ (by decide), other _ (by decide), other _ (by decide), other _ (by decide), other _ (by decide)]
    rfl
  simp [ofPlain?, null, bool, integer?_ofInt, Option.filter_some, wide, fits]

end Value
end NotebookPages.Yaml
