import NotebookPages.Proofs.Markup.Spelling

/-! A tag is read up to its end. The reader stops at the `>`, so what follows a tag can be replaced by anything. -/

namespace NotebookPages

namespace Text

variable {P : Char → Bool} {p z : Text}

theorem takeWhile_append_of_stop (stop : ∃ c ∈ p, P c = false) (z : Text) : (p ++ z).takeWhile P = p.takeWhile P := by
  rw [List.takeWhile_append]
  split
  next whole =>
    obtain ⟨c, member, other⟩ := stop
    have all := List.takeWhile_eq_self_iff.mp ((List.takeWhile_prefix P).eq_of_length whole)
    rw [all c member] at other
    cases other
  next => rfl

theorem dropWhile_append_of_stop (stop : ∃ c ∈ p, P c = false) (z : Text) : (p ++ z).dropWhile P = p.dropWhile P ++ z := by
  rw [List.dropWhile_append]
  split
  next empty =>
    obtain ⟨c, member, other⟩ := stop
    have all := List.dropWhile_eq_nil_iff.mp (List.isEmpty_iff.mp empty) c member
    rw [all] at other
    cases other
  next => rfl

theorem mem_dropWhile {c : Char} (member : c ∈ p) (other : P c = false) : c ∈ p.dropWhile P := by
  rw [← List.takeWhile_append_dropWhile (p := P) (l := p)] at member
  rcases List.mem_append.mp member with taken | dropped
  · rw [List.mem_takeWhile_imp taken] at other
    cases other
  · exact dropped

theorem head?_append_of_mem {c : Char} (member : c ∈ p) (z : Text) : (p ++ z).head? = p.head? := by
  obtain ⟨e, x, rfl⟩ := List.exists_cons_of_ne_nil (List.ne_nil_of_mem member)
  rfl

end Text

namespace Attribute

variable {p q z : Text} {v : Char × Text} {a : Attribute}

/-- A quotation is closed in what is read of it, so what follows can be replaced. -/
theorem closed_replace {rest : Text} {c e : Char} {after : Text} (closed : (rest ++ z).dropWhile (· != c) = e :: after)
    (same : after = q ++ z) (z' : Text) :
    (rest ++ z').dropWhile (· != c) = e :: (q ++ z') ∧ (rest ++ z').takeWhile (· != c) = (rest ++ z).takeWhile (· != c) := by
  have ends : ∃ e ∈ rest, (e != c) = false := by
    by_contra none
    have all : ∀ e ∈ rest, (e != c) = true := by
      intro e member
      by_contra other
      exact none ⟨e, member, by simpa using other⟩
    rw [List.dropWhile_append_of_pos all] at closed
    have bound := List.length_dropWhile_le (· != c) z
    rw [closed, same, List.length_cons, List.length_append] at bound
    omega
  rw [Text.takeWhile_append_of_stop ends, Text.takeWhile_append_of_stop ends, Text.dropWhile_append_of_stop ends]
  rw [Text.dropWhile_append_of_stop ends, same, ← List.cons_append] at closed
  rw [List.append_cancel_right closed]
  exact ⟨rfl, rfl⟩

theorem readValue?_replace (read : readValue? (p ++ z) = some (v, q ++ z)) (closer : '>' ∈ p) (z' : Text) :
    readValue? (p ++ z') = some (v, q ++ z') := by
  have stop : ∃ c ∈ p, Text.isMarkupBlank c = false := ⟨'>', closer, by decide⟩
  have inside := Text.mem_dropWhile closer (show Text.isMarkupBlank '>' = false by decide)
  unfold readValue? at read ⊢
  rw [Text.dropWhile_append_of_stop stop] at read ⊢
  cases shape : p.dropWhile Text.isMarkupBlank with
  | nil => simp [shape] at inside
  | cons c rest =>
    rw [shape] at read inside
    simp only [List.cons_append] at read ⊢
    split at read
    next quote =>
      split at read
      next => cases read
      next e after closed =>
        simp only [Option.some.injEq, Prod.mk.injEq] at read
        obtain ⟨again, taken⟩ := closed_replace closed read.2 z'
        rw [if_pos quote, again, taken, ← read.1]
    next plain =>
      have ends : ∃ e ∈ c :: rest, isBareChar e = false := ⟨'>', inside, by decide⟩
      rw [if_neg plain]
      have taken := @Text.takeWhile_append_of_stop _ _ ends
      have dropped := @Text.dropWhile_append_of_stop _ _ ends
      simp only [List.cons_append] at taken dropped
      simp only [taken, dropped] at read ⊢
      split at read
      next => cases read
      next good =>
        rw [if_neg good]
        simp only [Option.some.injEq, Prod.mk.injEq] at read ⊢
        exact ⟨read.1, congrArg (· ++ z') (List.append_cancel_right read.2)⟩

theorem read?_replace (read : read? (p ++ z) = some (a, q ++ z)) (closer : '>' ∈ p) (z' : Text) :
    read? (p ++ z') = some (a, q ++ z') := by
  have stop : ∃ c ∈ p, isNameChar c = false := ⟨'>', closer, by decide⟩
  have behind := Text.mem_dropWhile closer (show isNameChar '>' = false by decide)
  have stop' : ∃ c ∈ p.dropWhile isNameChar, Text.isMarkupBlank c = false := ⟨'>', behind, by decide⟩
  have inside := Text.mem_dropWhile behind (show Text.isMarkupBlank '>' = false by decide)
  unfold read? at read ⊢
  simp only [Text.takeWhile_append_of_stop stop, Text.dropWhile_append_of_stop stop, Text.dropWhile_append_of_stop stop'] at read ⊢
  split at read
  next => cases read
  next named =>
    rw [if_neg named]
    cases shape : (p.dropWhile isNameChar).dropWhile Text.isMarkupBlank with
    | nil => simp [shape] at inside
    | cons c rest =>
      rw [shape] at read inside
      simp only [List.cons_append] at read ⊢
      by_cases equals : c = '='
      · subst equals
        simp only [Option.map_eq_some_iff] at read ⊢
        obtain ⟨⟨v, after⟩, value, same⟩ := read
        obtain ⟨rfl, rfl⟩ := Prod.mk.inj same
        exact ⟨(v, q ++ z'), readValue?_replace value (by simpa using inside) z', rfl⟩
      · split at read
        next found => exact absurd (List.cons.inj found).1 equals
        next =>
          split
          next found => exact absurd (List.cons.inj found).1 equals
          next =>
            simp only [Option.some.injEq, Prod.mk.injEq] at read ⊢
            exact ⟨read.1, congrArg (· ++ z') (List.append_cancel_right read.2)⟩

end Attribute

theorem Attribute.Spelling.first {source : Text} {a : Attribute} (spelled : Attribute.Spelling source a) :
    ∃ c x, source = c :: x ∧ isNameChar c = true := by
  have named : ∀ {name rest : Text}, name ≠ [] → (∀ c ∈ name, isNameChar c = true) → ∃ c x, name ++ rest = c :: x ∧ isNameChar c = true := by
    intro name rest some chars
    obtain ⟨c, x, rfl⟩ := List.exists_cons_of_ne_nil some
    exact ⟨c, x ++ rest, rfl, chars c List.mem_cons_self⟩
  cases spelled with
  | alone some chars => 
    have first := @named source [] some chars
    rwa [List.append_nil] at first
  | quoted some chars | bare some chars => exact named some chars

namespace Tag

variable {p z : Text} {as : List Attribute} {slash closing : Bool} {fuel : Nat} {t : Tag}

theorem TailSpelling.mem (spelled : TailSpelling closing p as slash) : '>' ∈ p := by
  obtain ⟨front, rfl⟩ := spelled.closes
  simp

theorem readTail?_replace (read : readTail? closing fuel (p ++ z) = some (as, slash, z)) {fuel' : Nat} (enough : p.length < fuel')
    (z' : Text) : readTail? closing fuel' (p ++ z') = some (as, slash, z') := by
  induction fuel generalizing p as fuel' with
  | zero => cases read
  | succ fuel ih =>
    obtain ⟨fuel', rfl⟩ := Nat.exists_eq_succ_of_ne_zero (Nat.ne_of_gt (Nat.zero_lt_of_lt enough))
    have closer : '>' ∈ p := by
      obtain ⟨tail, whole, spelled⟩ := readTail?_sound read
      obtain rfl := List.append_cancel_right whole
      exact spelled.mem
    have stop : ∃ c ∈ p, Text.isMarkupBlank c = false := ⟨'>', closer, by decide⟩
    have inside := Text.mem_dropWhile closer (show Text.isMarkupBlank '>' = false by decide)
    have bound := List.length_dropWhile_le Text.isMarkupBlank p
    unfold readTail? at read ⊢
    rw [Text.dropWhile_append_of_stop stop, Text.head?_append_of_mem closer] at read ⊢
    generalize p.dropWhile Text.isMarkupBlank = body at read inside bound ⊢
    split at read
    next => cases read
    next rest shape =>
      simp only [Option.some.injEq, Prod.mk.injEq] at read
      obtain ⟨rfl, rfl, rfl⟩ := read
      obtain rfl : body = ['>'] := List.append_cancel_right (shape.trans List.singleton_append.symm)
      rfl
    next rest shape =>
      split at read
      next => cases read
      next opening =>
        simp only [Option.some.injEq, Prod.mk.injEq] at read
        obtain ⟨rfl, rfl, rfl⟩ := read
        obtain rfl : body = ['/', '>'] := List.append_cancel_right (shape.trans rfl)
        simp [opening]
    next =>
      split at read
      next => cases read
      next allowed =>
        split at read
        next => cases read
        next a rest found =>
          obtain ⟨⟨others, ended, after⟩, later, same⟩ := Option.map_eq_some_iff.mp read
          simp only [Prod.mk.injEq] at same
          obtain ⟨rfl, rfl, rfl⟩ := same
          obtain ⟨tail, rfl, -⟩ := readTail?_sound later
          obtain ⟨source, whole, spelled⟩ := Attribute.read?_sound found
          obtain rfl : body = source ++ tail := List.append_cancel_right (by rw [whole, List.append_assoc])
          obtain ⟨c, x, rfl, char⟩ := spelled.first
          have again := Attribute.read?_replace found inside z'
          have behind : tail.length < fuel' := by
            rw [List.length_append, List.length_cons] at bound
            omega
          split
          next empty => cases empty
          next rest' shape =>
            obtain rfl := (List.cons.inj shape).1
            exact absurd char (by decide)
          next rest' shape =>
            obtain rfl := (List.cons.inj shape).1
            exact absurd char (by decide)
          next =>
            rw [if_neg allowed, again]
            simp only [ih later behind, Option.map_some]

theorem readNamed?_replace (read : readNamed? closing (p ++ z) = some (t, z)) (z' : Text) : readNamed? closing (p ++ z') = some (t, z') := by
  have closer : '>' ∈ p := by
    obtain ⟨source, whole, spelled⟩ := readNamed?_sound read
    obtain rfl : p = source := List.append_cancel_right whole
    obtain ⟨front, shape⟩ := spelled.closes
    have member : '>' ∈ (if closing then ['/'] else []) ++ p := by
      rw [(List.cons.inj shape).2]
      exact List.mem_append_right front List.mem_cons_self
    cases closing with
    | true => simpa using member
    | false => exact member
  have stop : ∃ c ∈ p, isNameChar c = false := ⟨'>', closer, by decide⟩
  have bound := List.length_dropWhile_le isNameChar p
  unfold readNamed? at read ⊢
  rw [Text.head?_append_of_mem closer] at read ⊢
  split at read
  next letter =>
    rw [if_pos letter]
    simp only [Text.takeWhile_append_of_stop stop, Text.dropWhile_append_of_stop stop, Option.map_eq_some_iff] at read ⊢
    obtain ⟨⟨as, slash, rest⟩, tail, same⟩ := read
    obtain ⟨rfl, rfl⟩ := Prod.mk.inj same
    refine ⟨(as, slash, z'), readTail?_replace tail ?_ z', rfl⟩
    rw [List.length_append]
    omega
  next => cases read

/-- What follows a tag can be replaced. -/
theorem read?_replace (read : read? (p ++ z) = some (t, z)) (z' : Text) : read? (p ++ z') = some (t, z') := by
  obtain ⟨source, whole, spelled⟩ := read?_sound read
  obtain rfl : p = source := List.append_cancel_right whole
  cases spelled with
  | @tag closing slash name tail attributes letter chars rest =>
    obtain ⟨c, x, rfl⟩ : ∃ c x, name = c :: x := by
      cases name with
      | nil => simp at letter
      | cons c x => exact ⟨c, x, rfl⟩
    have other : c ≠ '/' := by
      rintro rfl
      exact absurd letter (by simp; decide)
    cases closing with
    | true => exact readNamed?_replace read z'
    | false =>
      have direct : ∀ y : Text, read? ('<' :: (c :: x ++ tail) ++ y) = readNamed? false (c :: x ++ tail ++ y) := by
        intro y
        simp [read?, other]
      exact (direct z').trans (readNamed?_replace ((direct z).symm.trans read) z')

end Tag
end NotebookPages
