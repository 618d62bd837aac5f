import NotebookPages.Proofs.Text.Cut
import NotebookPages.Text.Terminal

/-! Terminal escape sequences. No two of them overlap, so a pass takes out every sequence that stands in a text. What is left holds a
sequence exactly if one was written with others inside it. -/

namespace NotebookPages.Text

variable {b c d : Char} {a e k r s t u x y : Text}

/-- A control sequence up to its final character, or a command up to the bell or the terminator that ends it. -/
inductive IsSequence : Text → Prop
  | control {parameters intermediates : Text} {final : Char} (first : ∀ c ∈ parameters, isParameter c = true)
      (second : ∀ c ∈ intermediates, isIntermediate c = true) (last : isFinal final = true) :
      IsSequence (escapeChar :: '[' :: (parameters ++ (intermediates ++ [final])))
  | command {body ending : Text} (within : ∀ c ∈ body, c ≠ bell ∧ c ≠ escapeChar)
      (last : ending = [bell] ∨ ending = [escapeChar, '\\']) : IsSequence (escapeChar :: ']' :: (body ++ ending))

theorem toNat_of_isParameter (parameter : isParameter c = true) : 48 ≤ c.toNat ∧ c.toNat < 64 := by
  simp only [isParameter, Bool.or_eq_true, beq_iff_eq] at parameter
  rcases parameter with (digit | rfl) | rfl
  · have bounds : 48 ≤ c.toNat ∧ c.toNat ≤ 57 := by
      simpa [isDigit, Char.le_def, UInt32.le_iff_toNat_le] using digit
    omega
  · decide
  · decide

theorem isIntermediate_iff : isIntermediate c = true ↔ 32 ≤ c.toNat ∧ c.toNat ≤ 47 := by
  simp [isIntermediate, Char.le_def, UInt32.le_iff_toNat_le]

theorem isFinal_iff : isFinal c = true ↔ 64 ≤ c.toNat ∧ c.toNat ≤ 126 := by
  simp [isFinal, Char.le_def, UInt32.le_iff_toNat_le]

theorem not_isParameter (outside : c.toNat < 48 ∨ 64 ≤ c.toNat) : isParameter c = false := by
  rw [← Bool.not_eq_true]
  intro parameter
  have bounds := toNat_of_isParameter parameter
  omega

/-- The classes are apart, so each part of a control sequence ends where a character of another class stands. -/
theorem afterEscape?_control {parameters intermediates : Text} (first : ∀ c ∈ parameters, isParameter c = true)
    (second : ∀ c ∈ intermediates, isIntermediate c = true) (last : isFinal c = true) (r : Text) :
    afterEscape? (escapeChar :: '[' :: (parameters ++ (intermediates ++ c :: r))) = some r := by
  have ended := isFinal_iff.mp last
  have past : ∀ d, (c :: r).head? = some d → isIntermediate d = false := by
    intro d next
    obtain rfl : c = d := by simpa using next
    rw [← Bool.not_eq_true, isIntermediate_iff]
    omega
  have other : ∀ d, (intermediates ++ c :: r).head? = some d → isParameter d = false := by
    intro d next
    cases intermediates with
    | nil =>
      obtain rfl : c = d := by simpa using next
      exact not_isParameter (Or.inr ended.1)
    | cons i intermediates =>
      obtain rfl : i = d := by simpa using next
      have between := isIntermediate_iff.mp (second i List.mem_cons_self)
      exact not_isParameter (Or.inl (Nat.lt_succ_of_le between.2))
  simp only [escapeChar, afterEscape?]
  rw [dropWhile_stop first other, dropWhile_stop second past]
  exact if_pos last

theorem afterEscape?_command {body ending : Text} (within : ∀ c ∈ body, c ≠ bell ∧ c ≠ escapeChar)
    (last : ending = [bell] ∨ ending = [escapeChar, '\\']) (r : Text) :
    afterEscape? (escapeChar :: ']' :: (body ++ (ending ++ r))) = some r := by
  have all : ∀ c ∈ body, (c != bell && c != '\x1b') = true := by simpa [escapeChar] using within
  have stop : ∀ c, (ending ++ r).head? = some c → (c != bell && c != '\x1b') = false := by
    rcases last with rfl | rfl <;> simp [escapeChar]
  simp only [escapeChar, afterEscape?]
  rw [dropWhile_stop all stop]
  rcases last with rfl | rfl <;> rfl

theorem dropWhile_split (p : Char → Bool) (t : Text) : ∃ u, t = u ++ t.dropWhile p ∧ ∀ c ∈ u, p c = true :=
  ⟨t.takeWhile p, List.takeWhile_append_dropWhile.symm, List.all_eq_true.mp List.all_takeWhile⟩

theorem afterEscape?_sound (found : afterEscape? t = some r) : ∃ s, IsSequence s ∧ t = s ++ r := by
  unfold afterEscape? at found
  split at found
  next body =>
    obtain ⟨parameters, shape, first⟩ := dropWhile_split isParameter body
    obtain ⟨intermediates, inner, second⟩ := dropWhile_split isIntermediate (body.dropWhile isParameter)
    split at found
    next c rest remains =>
      split at found
      next last =>
        obtain rfl := Option.some.inj found
        refine ⟨_, .control first second last, ?_⟩
        rw [shape, inner, remains]
        simp [escapeChar]
      next => cases found
    next => cases found
  next body =>
    obtain ⟨title, shape, all⟩ := dropWhile_split (fun c => c != bell && c != escapeChar) body
    have within : ∀ c ∈ title, c ≠ bell ∧ c ≠ escapeChar := by simpa using all
    split at found
    next rest remains =>
      obtain rfl := Option.some.inj found
      refine ⟨_, .command within (.inl rfl), ?_⟩
      rw [shape, remains]
      simp [escapeChar, bell]
    next rest remains =>
      obtain rfl := Option.some.inj found
      refine ⟨_, .command within (.inr rfl), ?_⟩
      rw [shape, remains]
      simp [escapeChar]
    next => cases found
  next => cases found

/-- Reading takes the one sequence that begins a text. -/
theorem afterEscape?_eq_some_iff : afterEscape? t = some r ↔ ∃ s, IsSequence s ∧ t = s ++ r := by
  refine ⟨afterEscape?_sound, ?_⟩
  rintro ⟨s, sequence, rfl⟩
  cases sequence with
  | control first second last => simpa using afterEscape?_control first second last r
  | command within last => simpa using afterEscape?_command within last r

theorem IsSequence.unique (one : IsSequence s) (other : IsSequence e) (same : s ++ r = e ++ x) : s = e := by
  have found : afterEscape? (s ++ r) = some r := afterEscape?_eq_some_iff.mpr ⟨s, one, rfl⟩
  have again : afterEscape? (s ++ r) = some x := afterEscape?_eq_some_iff.mpr ⟨e, other, same⟩
  obtain rfl : r = x := Option.some.inj (found.symm.trans again)
  exact List.append_cancel_right same

/-- Every escape character in the text is that of a terminator. -/
def Inner (t : Text) : Prop := ∀ u v, t = u ++ escapeChar :: v → v.head? = some '\\'

theorem inner_of_not_mem (absent : escapeChar ∉ t) : Inner t := by
  rintro u v rfl
  simp at absent

theorem Inner.cons (next : c = escapeChar → t.head? = some '\\') (inner : Inner t) : Inner (c :: t) := by
  intro u v shape
  cases u with
  | nil =>
    obtain ⟨rfl, rfl⟩ := List.cons.inj shape
    exact next rfl
  | cons d u => exact inner u v (List.cons.inj shape).2

theorem Inner.next (inner : Inner (escapeChar :: t)) : t.head? = some '\\' := inner [] t rfl

theorem Inner.tail (inner : Inner (c :: t)) : Inner t := fun u v shape => inner (c :: u) v (congrArg (c :: ·) shape)

theorem Inner.append (front : escapeChar ∉ x) (inner : Inner t) : Inner (x ++ t) := by
  induction x with
  | nil => exact inner
  | cons c x ih =>
    obtain ⟨other, later⟩ := not_or.mp (mt List.mem_cons.mpr front)
    exact .cons (fun same => absurd same.symm other) (ih later)

/-- A sequence begins in one of two ways, and no other begins inside it. -/
theorem IsSequence.opening (sequence : IsSequence s) : ∃ b x, s = escapeChar :: b :: x ∧ (b = '[' ∨ b = ']') ∧ Inner (b :: x) := by
  cases sequence with
  | control first second last =>
    refine ⟨_, _, rfl, Or.inl rfl, inner_of_not_mem fun inside => ?_⟩
    have code : escapeChar.toNat = 27 := by decide
    rcases List.mem_cons.mp inside with same | inside
    · exact absurd same (by decide)
    rcases List.mem_append.mp inside with inside | inside
    · have bounds := toNat_of_isParameter (first _ inside)
      omega
    rcases List.mem_append.mp inside with inside | inside
    · have bounds := isIntermediate_iff.mp (second _ inside)
      omega
    · rw [← List.mem_singleton.mp inside] at last
      exact absurd last (by decide)
  | @command body ending within last =>
    refine ⟨_, _, rfl, Or.inr rfl, ?_⟩
    rw [← List.cons_append]
    apply Inner.append
    · intro inside
      rcases List.mem_cons.mp inside with same | inside
      · exact absurd same (by decide)
      · exact (within _ inside).2 rfl
    · rcases last with rfl | rfl
      · exact inner_of_not_mem (by decide)
      · exact .cons (fun _ => rfl) (inner_of_not_mem (by decide))

/-- A sequence at the start of a text ends before the next escape character that begins no terminator. -/
theorem IsSequence.ends_before (sequence : IsSequence s) (front : a ≠ []) (other : x.head? ≠ some '\\')
    (same : s ++ r = a ++ (escapeChar :: x)) : ∃ m, a = s ++ m := by
  rcases List.append_eq_append_iff.mp same with ⟨m, rfl, -⟩ | ⟨m, rfl, shape⟩
  · exact ⟨m, rfl⟩
  · cases m with
    | nil => exact ⟨[], by simp⟩
    | cons d m =>
      obtain ⟨b, y, first, -, inner⟩ := sequence.opening
      obtain ⟨e, a, rfl⟩ := List.exists_cons_of_ne_nil front
      obtain ⟨rfl, rfl⟩ := List.cons.inj shape
      have next := inner a m (List.cons.inj first).2.symm
      cases m with
      | nil => cases next
      | cons f m => exact absurd next other

theorem plainFrom_append (a r : Text) : plainFrom a.length (a ++ r) = plain r := by
  induction a with
  | nil => rfl
  | cons c a ih => exact ih

theorem plain_sequence (sequence : IsSequence s) (t : Text) : plain (s ++ t) = plain t := by
  obtain ⟨b, x, rfl, -, -⟩ := sequence.opening
  have found : afterEscape? (escapeChar :: (b :: x ++ t)) = some t := afterEscape?_eq_some_iff.mpr ⟨_, sequence, rfl⟩
  have rest : (b :: x ++ t).length - t.length = (b :: x).length := by
    rw [List.length_append]
    exact Nat.add_sub_cancel ..
  calc plain (escapeChar :: (b :: x ++ t))
    _ = plainFrom ((b :: x ++ t).length - t.length) (b :: x ++ t) := by rw [plain, plainFrom, found]
    _ = plain t := by rw [rest, plainFrom_append]

theorem plain_cons (kept : afterEscape? (c :: t) = none) : plain (c :: t) = c :: plain t := by
  rw [plain, plainFrom, kept]
  rfl

theorem afterEscape?_eq_none (kept : c ≠ escapeChar ∨ t.head? ≠ some '[' ∧ t.head? ≠ some ']') : afterEscape? (c :: t) = none := by
  rw [Option.eq_none_iff_forall_ne_some]
  intro r found
  obtain ⟨s, sequence, shape⟩ := afterEscape?_sound found
  obtain ⟨b, x, rfl, opens, -⟩ := sequence.opening
  obtain ⟨rfl, rfl⟩ := List.cons.inj shape
  rcases kept with other | ⟨control, command⟩
  · exact other rfl
  · exact opens.elim (fun same => control (congrArg some same)) fun same => command (congrArg some same)

/-- A text is read character by character where no sequence begins, and else sequence by sequence. -/
@[elab_as_elim]
theorem sequence_induction {motive : Text → Prop} (nil : motive [])
    (kept : ∀ c t, afterEscape? (c :: t) = none → motive t → motive (c :: t))
    (taken : ∀ s t, IsSequence s → motive t → motive (s ++ t)) (t : Text) : motive t := by
  induction length : t.length using Nat.strongRecOn generalizing t with
  | ind n ih =>
    cases t with
    | nil => exact nil
    | cons c t =>
      cases found : afterEscape? (c :: t) with
      | none => exact kept c t found (ih t.length (by simp [← length]) t rfl)
      | some r =>
        obtain ⟨s, sequence, shape⟩ := afterEscape?_sound found
        obtain ⟨b, x, rfl, -⟩ := sequence.opening
        rw [shape] at length ⊢
        exact taken _ r sequence (ih r.length (by simp [← length]; omega) r rfl)

/-- The text with whole sequences put between its characters. -/
inductive Woven : Text → Text → Prop
  | nil : Woven [] []
  | own {c : Char} {k t : Text} (rest : Woven k t) : Woven (c :: k) (c :: t)
  | other {k s t : Text} (sequence : IsSequence s) (rest : Woven k t) : Woven k (s ++ t)

theorem Woven.sublist (woven : Woven k t) : k.Sublist t := by
  induction woven with
  | nil => exact List.Sublist.refl []
  | own _ ih => exact ih.cons_cons _
  | other _ _ ih => exact ih.trans (List.sublist_append_right _ _)

/-- A pass takes out whole sequences only. -/
theorem woven_plain (t : Text) : Woven (plain t) t := by
  induction t using sequence_induction with
  | nil => exact .nil
  | kept c t none ih => exact plain_cons none ▸ .own ih
  | taken s t sequence ih => exact plain_sequence sequence t ▸ .other sequence ih

/-- A character that is left stands where no sequence begins, behind the characters left before it. -/
theorem exists_of_plain (shape : plain t = k ++ c :: x) :
    ∃ a r, t = a ++ c :: r ∧ Woven k a ∧ afterEscape? (c :: r) = none ∧ plain r = x := by
  induction t using sequence_induction generalizing k with
  | nil => simp [plain, plainFrom] at shape
  | kept d t none ih =>
    rw [plain_cons none] at shape
    cases k with
    | nil =>
      obtain ⟨rfl, rest⟩ := List.cons.inj shape
      exact ⟨[], t, rfl, .nil, none, rest⟩
    | cons e k =>
      obtain ⟨rfl, rest⟩ := List.cons.inj shape
      obtain ⟨a, r, rfl, woven, first, later⟩ := ih rest
      exact ⟨d :: a, r, rfl, .own woven, first, later⟩
  | taken s t sequence ih =>
    rw [plain_sequence sequence] at shape
    obtain ⟨a, r, rfl, woven, first, later⟩ := ih shape
    exact ⟨s ++ a, r, by simp, .other sequence woven, first, later⟩

/-- What stands before an escape character that begins no terminator is read alone. -/
theorem plain_append (other : x.head? ≠ some '\\') (t : Text) :
    plain (t ++ escapeChar :: x) = plain t ++ plain (escapeChar :: x) := by
  induction t using sequence_induction with
  | nil => rfl
  | kept c t none ih =>
    have kept : afterEscape? (c :: (t ++ escapeChar :: x)) = Option.none := by
      rw [Option.eq_none_iff_forall_ne_some]
      intro r found
      obtain ⟨s, sequence, shape⟩ := afterEscape?_sound found
      obtain ⟨m, whole⟩ := sequence.ends_before (List.cons_ne_nil c t) other shape.symm
      rw [afterEscape?_eq_some_iff.mpr ⟨s, sequence, whole⟩] at none
      cases none
    rw [plain_cons none, List.cons_append, plain_cons kept, ih, List.cons_append]
  | taken s t sequence ih => rw [List.append_assoc, plain_sequence sequence, plain_sequence sequence, ih]

/-- No sequence stands in the text. -/
def Plain (t : Text) : Prop := ∀ s, IsSequence s → ¬ s <:+: t

theorem plain_eq_self_iff : plain t = t ↔ Plain t := by
  constructor
  · rintro same s sequence ⟨a, r, rfl⟩
    obtain ⟨b, x, shape, opens, -⟩ := sequence.opening
    have apart : plain (a ++ (s ++ r)) = plain a ++ plain r := by
      rw [← plain_sequence sequence r, shape]
      exact plain_append (by rcases opens with rfl | rfl <;> simp) a
    have before := (woven_plain a).sublist.length_le
    have after := (woven_plain r).sublist.length_le
    have length := congrArg List.length same
    rw [List.append_assoc, apart, shape] at length
    simp at length
    omega
  · intro free
    induction t using sequence_induction with
    | nil => rfl
    | kept c t none ih =>
      rw [plain_cons none, ih fun s sequence inside => free s sequence (List.infix_cons inside)]
    | taken s t sequence ih => exact absurd (List.prefix_append s t).isInfix (free s sequence)

/-- A sequence stands in the text with others inside it. -/
def Interrupted (t : Text) : Prop :=
  ∃ k d x, IsSequence (escapeChar :: (k ++ [d])) ∧ Woven k x ∧ k ≠ x ∧ escapeChar :: (x ++ [d]) <:+: t

/-- The first and the last character of a sequence that is left stand where no sequence begins, so others stood between them. -/
theorem interrupted_of_remains (sequence : IsSequence s) (inside : s <:+: plain t) : Interrupted t := by
  obtain ⟨k, y, whole⟩ := inside
  obtain ⟨b, z, rfl, -, -⟩ := sequence.opening
  obtain ⟨inner, d, last⟩ := List.eq_nil_or_concat (b :: z) |>.resolve_left (List.cons_ne_nil b z)
  rw [List.concat_eq_append] at last
  rw [last] at sequence whole
  have left : plain t = k ++ escapeChar :: (inner ++ d :: y) := by simp [← whole]
  obtain ⟨a, r, rfl, -, unread, rest⟩ := exists_of_plain left
  obtain ⟨x, r', rfl, woven, -, -⟩ := exists_of_plain rest
  refine ⟨inner, d, x, sequence, woven, ?_, a, r', by simp⟩
  -- Had nothing stood between them, the sequence would have been read where it begins.
  rintro rfl
  have read : afterEscape? (escapeChar :: (inner ++ d :: r')) = some r' :=
    afterEscape?_eq_some_iff.mpr ⟨_, sequence, by simp⟩
  rw [read] at unread
  cases unread

theorem Woven.first_other (woven : Woven k x) (changed : k ≠ x) :
    ∃ a s y, a <+: k ∧ IsSequence s ∧ x = a ++ (s ++ y) := by
  induction woven with
  | nil => exact absurd rfl changed
  | own rest ih =>
    obtain ⟨a, s, y, front, sequence, shape⟩ := ih fun same => changed (congrArg _ same)
    exact ⟨_ :: a, s, y, List.cons_prefix_cons.mpr ⟨rfl, front⟩, sequence, congrArg _ shape⟩
  | other sequence rest => exact ⟨[], _, _, List.nil_prefix, sequence, rfl⟩

/-- The first character is the text's own or that of a sequence. -/
theorem Woven.head? (woven : Woven k x) (y : Text) : (x ++ y).head? = (k ++ y).head? ∨ (x ++ y).head? = some escapeChar := by
  cases woven with
  | nil => exact Or.inl rfl
  | own => exact Or.inl rfl
  | other sequence =>
    obtain ⟨b, z, rfl, -⟩ := sequence.opening
    exact Or.inr rfl

/-- What is the text's own is left if no sequence can begin with it. -/
theorem Woven.plain_append (woven : Woven k x) (inner : Inner (k ++ [d])) (r : Text) :
    plain (x ++ d :: r) = k ++ d :: plain r := by
  induction woven with
  | nil =>
    refine plain_cons (afterEscape?_eq_none (Or.inl ?_))
    rintro rfl
    cases inner.next
  | @own c k x rest ih =>
    have kept : afterEscape? (c :: (x ++ d :: r)) = none := by
      apply afterEscape?_eq_none
      by_cases escape : c = escapeChar
      -- The escape character of a terminator is followed by its backslash or by an inserted sequence.
      · subst escape
        have next : (k ++ d :: r).head? = some '\\' := by
          have next := inner.next
          cases k <;> simpa using next
        right
        rcases rest.head? (d :: r) with same | same <;> simp [same, next, escapeChar]
      · exact Or.inl escape
    rw [List.cons_append, plain_cons kept, ih inner.tail, List.cons_append]
  | other sequence rest ih => rw [List.append_assoc, plain_sequence sequence, ih inner]

/-- A sequence with others inside it cannot be read where it begins, for it is longer than what stands before the first of them. -/
theorem IsSequence.unread (sequence : IsSequence (escapeChar :: (k ++ [d]))) (woven : Woven k x) (changed : k ≠ x) (r : Text) :
    afterEscape? (escapeChar :: (x ++ d :: r)) = none := by
  rw [Option.eq_none_iff_forall_ne_some]
  intro rest found
  obtain ⟨e, other, shape⟩ := afterEscape?_sound found
  obtain ⟨a, s, y, ⟨b, rfl⟩, inserted, rfl⟩ := woven.first_other changed
  obtain ⟨f, z, rfl, opens, -⟩ := inserted.opening
  have apart : (f :: z ++ y ++ d :: r).head? ≠ some '\\' := by rcases opens with rfl | rfl <;> simp
  obtain ⟨m, whole⟩ := other.ends_before (List.cons_ne_nil escapeChar a) apart (by simpa using shape.symm)
  have same : e = escapeChar :: (a ++ b ++ [d]) := other.unique sequence (r := m ++ (b ++ [d])) (x := []) (by
    rw [← List.append_assoc, ← whole]
    simp)
  have length := congrArg List.length whole
  simp [same] at length

theorem exists_infix_of_interrupted (interrupted : Interrupted t) : ∃ s, IsSequence s ∧ s <:+: plain t := by
  obtain ⟨k, d, x, sequence, woven, changed, a, r, rfl⟩ := interrupted
  obtain ⟨b, y, shape, opens, inner⟩ := sequence.opening
  have own := (List.cons.inj shape).2
  have apart : (x ++ d :: r).head? ≠ some '\\' := by
    have first : (k ++ d :: r).head? = some b := by
      have first := congrArg List.head? own
      cases k <;> simpa using first
    rcases woven.head? (d :: r) with same | same
    · rw [same, first]
      rcases opens with rfl | rfl <;> simp
    · rw [same]
      simp [escapeChar]
  refine ⟨_, sequence, plain a, plain r, ?_⟩
  calc plain a ++ escapeChar :: (k ++ [d]) ++ plain r
    _ = plain a ++ escapeChar :: (k ++ d :: plain r) := by simp
    _ = plain a ++ plain (escapeChar :: (x ++ d :: r)) := by
      rw [plain_cons (sequence.unread woven changed r), woven.plain_append (own ▸ inner) r]
    _ = plain (a ++ escapeChar :: (x ++ d :: r)) := (plain_append apart a).symm
    _ = plain (a ++ escapeChar :: (x ++ [d]) ++ r) := by simp

/-- No sequence is left, and a second pass changes nothing, exactly if no sequence was written with others inside it. -/
theorem plain_plain_iff (t : Text) : (Plain (plain t) ↔ ¬ Interrupted t) ∧ (plain (plain t) = plain t ↔ ¬ Interrupted t) := by
  have free : Plain (plain t) ↔ ¬ Interrupted t := by
    constructor
    · intro free interrupted
      obtain ⟨s, sequence, inside⟩ := exists_infix_of_interrupted interrupted
      exact free s sequence inside
    · intro whole s sequence inside
      exact whole (interrupted_of_remains sequence inside)
  exact ⟨free, plain_eq_self_iff.trans free⟩

/-- An escape character in front of a sequence begins one with what stands behind it. -/
theorem plain_not_plain : IsSequence "\x1b[0m" ∧ plain "\x1b\x1b[0m[0m" = "\x1b[0m" ∧ ¬ Plain (plain "\x1b\x1b[0m[0m") ∧
    plain (plain "\x1b\x1b[0m[0m") = [] := by
  have reset : IsSequence "\x1b[0m" := @IsSequence.control ['0'] [] 'm' (by simp [isParameter, isDigit]) (by simp) (by decide)
  have left : plain "\x1b\x1b[0m[0m" = "\x1b[0m" := by decide
  refine ⟨reset, left, fun free => ?_, by decide⟩
  rw [left] at free
  exact free _ reset (List.infix_refl _)

end NotebookPages.Text
