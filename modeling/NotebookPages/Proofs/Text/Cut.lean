import NotebookPages.Text.Basic
import Mathlib.Data.List.Basic
import Mathlib.Data.List.TakeWhile

/-! Cutting a text at a mark. Where the first mark stands depends only on the text up to the end of
that mark, so what follows it may be replaced. -/

namespace NotebookPages.Text

variable {mark t x y : Text}

theorem isPrefixOf?_eq_some_iff : mark.isPrefixOf? t = some y ↔ t = mark ++ y := by
  induction mark generalizing t with
  | nil => simp [List.isPrefixOf?, eq_comm]
  | cons m mark ih =>
    cases t with
    | nil => simp [List.isPrefixOf?]
    | cons c t =>
      simp only [List.isPrefixOf?, List.cons_append, List.cons.injEq]
      split
      next same => simp [ih, eq_comm.mp (beq_iff_eq.mp same)]
      next other => simp [Ne.symm (fun same => other (beq_iff_eq.mpr same))]

theorem after?_eq_some_iff : after? mark t = some y ↔ t = mark ++ y := isPrefixOf?_eq_some_iff

theorem startsWith_iff : startsWith t mark = true ↔ ∃ y, t = mark ++ y := by
  rw [startsWith, List.isPrefixOf_iff_prefix]
  exact exists_congr fun y => eq_comm

theorem isPrefixOf?_append (fits : mark.length ≤ t.length) :
    mark.isPrefixOf? (t ++ y) = (mark.isPrefixOf? t).map (· ++ y) := by
  induction mark generalizing t with
  | nil => simp [List.isPrefixOf?]
  | cons m mark ih =>
    cases t with
    | nil => simp at fits
    | cons c t =>
      simp only [List.cons_append, List.isPrefixOf?]
      split
      · exact ih (by simpa using fits)
      · rfl

theorem eq_of_cut (found : cut mark t = some (x, y)) : t = x ++ (mark ++ y) := by
  induction t generalizing x with
  | nil =>
    simp only [cut] at found
    split at found
    next empty =>
      obtain ⟨rfl, rfl⟩ := Prod.mk.inj (Option.some.inj found)
      simpa using (List.isEmpty_iff.mp empty).symm
    next => cases found
  | cons c t ih =>
    simp only [cut] at found
    split at found
    next after here =>
      obtain ⟨rfl, rfl⟩ := Prod.mk.inj (Option.some.inj found)
      simpa using isPrefixOf?_eq_some_iff.mp here
    next =>
      obtain ⟨⟨front, back⟩, later, same⟩ := Option.map_eq_some_iff.mp found
      obtain ⟨rfl, rfl⟩ := Prod.mk.inj same
      simp [ih later]

/-- What follows the first mark may be replaced. -/
theorem cut_append (x y z : Text) (found : cut mark (x ++ (mark ++ y)) = some (x, y)) :
    cut mark (x ++ (mark ++ z)) = some (x, z) := by
  induction x with
  | nil =>
    cases mark with
    | nil => cases z <;> simp [cut, List.isPrefixOf?]
    | cons m mark =>
      have here : (m :: mark).isPrefixOf? (m :: (mark ++ z)) = some z := isPrefixOf?_eq_some_iff.mpr rfl
      simp [cut, here]
  | cons c x ih =>
    simp only [List.cons_append, cut] at found ⊢
    have fits : mark.length ≤ (c :: (x ++ mark)).length := by simp; omega
    have shape : ∀ w : Text, c :: (x ++ (mark ++ w)) = (c :: (x ++ mark)) ++ w := by simp
    rw [shape, isPrefixOf?_append fits] at found ⊢
    cases here : mark.isPrefixOf? (c :: (x ++ mark)) with
    | some after => simp [here] at found
    | none =>
      simp only [here, Option.map_none] at found ⊢
      simp only [Option.map_eq_some_iff, Prod.exists, Prod.mk.injEq, List.cons.injEq, true_and] at found
      obtain ⟨front, back, later, rfl, rfl⟩ := found
      simp [ih later]

/-- The first mark does not stand behind another. -/
theorem length_le_of_cut {v w : Text} (found : cut mark t = some (x, y)) (other : t = v ++ (mark ++ w)) :
    x.length ≤ v.length := by
  induction t generalizing x v with
  | nil =>
    obtain rfl := (List.append_eq_nil_iff.mp (eq_of_cut found).symm).1
    exact Nat.zero_le _
  | cons c t ih =>
    simp only [cut] at found
    split at found
    next =>
      obtain ⟨rfl, -⟩ := Prod.mk.inj (Option.some.inj found)
      exact Nat.zero_le _
    next missing =>
      obtain ⟨⟨front, back⟩, later, same⟩ := Option.map_eq_some_iff.mp found
      obtain ⟨rfl, rfl⟩ := Prod.mk.inj same
      cases v with
      | nil =>
        have here : mark.isPrefixOf? (c :: t) = some w := isPrefixOf?_eq_some_iff.mpr other
        rw [here] at missing
        cases missing
      | cons e v => exact Nat.succ_le_succ (ih later (List.cons.inj other).2)

theorem cut_singleton {m : Char} : cut [m] t = some (x, y) ↔ t = x ++ m :: y ∧ m ∉ x := by
  induction t generalizing x with
  | nil => simp [cut]
  | cons c t ih =>
    simp only [cut, List.isPrefixOf?]
    by_cases same : m = c
    · subst same
      simp only [BEq.rfl, if_true, Option.some.injEq, Prod.mk.injEq]
      constructor
      · rintro ⟨rfl, rfl⟩
        simp
      · rintro ⟨whole, absent⟩
        cases x with
        | nil => simpa using whole
        | cons d x =>
          obtain ⟨rfl, -⟩ := List.cons.inj whole
          simp at absent
    · simp only [beq_iff_eq, same, if_false, Option.map_eq_some_iff, Prod.exists, Prod.mk.injEq]
      constructor
      · rintro ⟨front, back, later, rfl, rfl⟩
        obtain ⟨rfl, absent⟩ := ih.mp later
        exact ⟨rfl, by simp [absent, same]⟩
      · rintro ⟨whole, absent⟩
        cases x with
        | nil => exact absurd (List.cons.inj whole).1.symm same
        | cons d x =>
          simp only [List.cons_append, List.cons.injEq] at whole
          obtain ⟨rfl, whole⟩ := whole
          exact ⟨x, y, ih.mpr ⟨whole, fun member => absent (List.mem_cons_of_mem _ member)⟩, rfl, rfl⟩

theorem takeWhile_stop {p : Char → Bool} (all : ∀ c ∈ x, p c = true) (stop : ∀ c, y.head? = some c → p c = false) :
    (x ++ y).takeWhile p = x := by
  rw [List.takeWhile_append_of_pos all]
  cases y with
  | nil => simp
  | cons c y => simp [stop c rfl]

theorem dropWhile_stop {p : Char → Bool} (all : ∀ c ∈ x, p c = true) (stop : ∀ c, y.head? = some c → p c = false) :
    (x ++ y).dropWhile p = y := by
  rw [List.dropWhile_append_of_pos all]
  cases y with
  | nil => simp
  | cons c y => simp [stop c rfl]

@[simp]
theorem upTo_append (a rest : Text) : upTo (a ++ rest) rest = a := by
  simp [upTo]

@[simp]
theorem upTo_cons_append (c : Char) (a rest : Text) : upTo (c :: (a ++ rest)) rest = c :: a :=
  upTo_append (c :: a) rest

end NotebookPages.Text
