import NotebookPages.Proofs.Text.Words
import NotebookPages.Text.Phrase
import Mathlib.Data.List.Chain

/-! Short texts. To collapse a text changes nothing but its blanks, and a text in which every blank is a lone inner space is its own
collapsed text. To shorten it takes nothing in but the dots of an ellipsis, and keeps to the limit if the ellipsis does. -/

namespace NotebookPages.Text

variable {sep : Char → Bool} {c : Char} {t : Text} {limit : Nat}

theorem mem_squeeze (inside : c ∈ squeeze sep t) : c = ' ' ∨ c ∈ t ∧ sep c = false := by
  induction t with
  | nil => cases inside
  | cons d t ih =>
    have later : c ∈ squeeze sep t → c = ' ' ∨ c ∈ d :: t ∧ sep c = false := fun inside =>
      (ih inside).imp id fun ⟨member, plain⟩ => ⟨List.mem_cons_of_mem d member, plain⟩
    rw [squeeze] at inside
    split at inside
    next =>
      split at inside
      next => exact later inside
      next => exact (List.mem_cons.mp inside).elim Or.inl later
    next plain =>
      rcases List.mem_cons.mp inside with rfl | inside
      · exact Or.inr ⟨List.mem_cons_self, by simpa using plain⟩
      · exact later inside

theorem length_squeeze_le (sep : Char → Bool) (t : Text) : (squeeze sep t).length ≤ t.length := by
  induction t with
  | nil => exact Nat.le_refl 0
  | cons c t ih =>
    rw [squeeze]
    split
    · split
      · exact Nat.le_succ_of_le ih
      · exact Nat.succ_le_succ ih
    · exact Nat.succ_le_succ ih

theorem filter_squeeze (t : Text) : (squeeze isBlank t).filter (!isBlank ·) = t.filter (!isBlank ·) := by
  have space : isBlank ' ' = true := by decide
  induction t with
  | nil => rfl
  | cons c t ih =>
    rw [squeeze]
    split
    next blank =>
      split
      · rw [ih, List.filter_cons_of_neg (by simpa using blank)]
      · rw [List.filter_cons_of_neg (by simpa using space), ih, List.filter_cons_of_neg (by simpa using blank)]
    next plain =>
      rw [List.filter_cons_of_pos (by simpa using plain), ih, List.filter_cons_of_pos (by simpa using plain)]

/-- Every blank stands alone. -/
def Single (t : Text) : Prop := t.IsChain fun a b => ¬ (isBlank a = true ∧ isBlank b = true)

theorem squeeze_of_single (single : Single t) (spaces : ∀ c ∈ t, isBlank c = true → c = ' ') : squeeze isBlank t = t := by
  induction t with
  | nil => rfl
  | cons c t ih =>
    obtain ⟨next, single⟩ := List.isChain_cons.mp single
    rw [squeeze, ih single fun d inside => spaces d (List.mem_cons_of_mem c inside)]
    split
    next blank =>
      have alone : t.head?.any isBlank = false := by
        cases t with
        | nil => rfl
        | cons d t => simpa [blank] using next d rfl
      rw [alone, spaces c List.mem_cons_self blank]
      rfl
    next => rfl

theorem collapse_eq_trim (t : Text) : collapse t = trim (squeeze isBlank t) :=
  (trim_squeeze (fun _ blank => blank) t).symm

theorem trimmed_collapse (t : Text) : Trimmed (collapse t) := collapse_eq_trim t ▸ trimmed_trim _

theorem length_collapse_le (t : Text) : (collapse t).length ≤ t.length := by
  rw [collapse_eq_trim]
  exact (infix_trim _).length_le.trans (length_squeeze_le isBlank t)

theorem eq_space_of_mem_collapse (inside : c ∈ collapse t) (blank : isBlank c = true) : c = ' ' := by
  rw [collapse_eq_trim] at inside
  refine (mem_squeeze ((infix_trim _).subset inside)).resolve_right ?_
  rintro ⟨-, plain⟩
  rw [blank] at plain
  cases plain

/-- All that is not blank is kept, in order. -/
theorem filter_collapse (t : Text) : (collapse t).filter (!isBlank ·) = t.filter (!isBlank ·) := by
  obtain ⟨u, v, whole, before, after, -⟩ := trim_split (squeeze isBlank t)
  have none : ∀ {w : Text}, Blank w → w.filter (!isBlank ·) = [] := fun blank =>
    List.filter_eq_nil_iff.mpr fun c inside => by simpa using blank c inside
  have kept := congrArg (List.filter (!isBlank ·)) whole
  rw [List.filter_append, List.filter_append, none before, none after, List.append_nil, filter_squeeze] at kept
  rw [collapse_eq_trim]
  exact kept.symm

theorem count_collapse (plain : isBlank c = false) (t : Text) : (collapse t).count c = t.count c := by
  have kept := congrArg (List.count c) (filter_collapse t)
  rwa [List.count_filter (by simpa using plain), List.count_filter (by simpa using plain)] at kept

theorem blank_collapse_iff : Blank (collapse t) ↔ Blank t := by
  have none : ∀ {w : Text}, Blank w ↔ w.filter (!isBlank ·) = [] := fun {w} => by simp [Blank, List.filter_eq_nil_iff]
  rw [none, none, filter_collapse]

theorem collapse_eq_nil_iff : collapse t = [] ↔ Blank t := by
  rw [← blank_collapse_iff]
  constructor
  · intro empty
    rw [empty]
    exact blank_nil
  · intro blank
    have same := trim_of_trimmed (trimmed_collapse t)
    rwa [trim_eq_nil_of_blank blank, eq_comm] at same

theorem collapse_eq_self_iff (trimmed : Trimmed t) (single : Single t) : collapse t = t ↔ ∀ c ∈ t, isBlank c = true → c = ' ' := by
  constructor
  · intro same c inside blank
    rw [← same] at inside
    exact eq_space_of_mem_collapse inside blank
  · intro spaces
    rw [collapse_eq_trim, squeeze_of_single single spaces, trim_of_trimmed trimmed]

theorem shorten_of_fits (fits : t.length ≤ limit) : shorten limit t = t := if_pos fits

theorem mem_shorten (inside : c ∈ shorten limit t) : c ∈ t ∨ c = '.' := by
  rw [shorten] at inside
  split at inside
  next => exact Or.inl inside
  next =>
    rcases List.mem_append.mp inside with inside | inside
    · exact Or.inl (List.mem_of_mem_take inside)
    · exact Or.inr (by simpa [ellipsis] using inside)

theorem length_ellipsis : ellipsis.length = 3 := rfl

theorem shorten_of_long (long : limit < t.length) : shorten limit t = t.take (limit - 3) ++ ellipsis :=
  if_neg (Nat.not_le.mpr long)

theorem length_shorten_of_long (long : limit < t.length) : (shorten limit t).length = max limit 3 := by
  rw [shorten_of_long long, List.length_append, List.length_take, length_ellipsis]
  omega

theorem length_shorten_le (roomy : ellipsis.length ≤ limit) (t : Text) : (shorten limit t).length ≤ limit := by
  rcases Nat.lt_or_ge limit t.length with long | fits
  · rw [length_shorten_of_long long]
    exact Nat.max_le.mpr ⟨Nat.le_refl limit, roomy⟩
  · rwa [shorten_of_fits fits]

theorem not_blank_shorten (solid : ¬ Blank t) (limit : Nat) : ¬ Blank (shorten limit t) := by
  intro blank
  rw [shorten] at blank
  split at blank
  next => exact solid blank
  next =>
    have dot := blank '.' (List.mem_append_right _ (by decide))
    simp [isBlank] at dot

/-- A text within the limit is kept, and one over it gives way to its first characters and an ellipsis. The result is over the limit
if both the text and the ellipsis are. -/
theorem shorten_within_iff (limit : Nat) (t : Text) : ((shorten limit t).length ≤ limit ↔ t.length ≤ limit ∨ 3 ≤ limit) ∧
    (t.length ≤ limit → shorten limit t = t) ∧
    (limit < t.length → 3 ≤ limit → shorten limit t = t.take (limit - 3) ++ ellipsis ∧ (shorten limit t).length = limit) ∧
    (limit < t.length → limit < 3 → shorten limit t = ellipsis) := by
  refine ⟨⟨fun within => ?_, ?_⟩, shorten_of_fits, fun long roomy => ⟨shorten_of_long long, ?_⟩, fun long narrow => ?_⟩
  · rcases Nat.lt_or_ge limit t.length with long | fits
    · rw [length_shorten_of_long long] at within
      exact Or.inr (Nat.max_le.mp within).2
    · exact Or.inl fits
  · rintro (fits | roomy)
    · rwa [shorten_of_fits fits]
    · exact length_shorten_le roomy t
  · rw [length_shorten_of_long long, Nat.max_eq_left roomy]
  · rw [shorten_of_long long, Nat.sub_eq_zero_of_le (Nat.le_of_lt narrow), List.take_zero, List.nil_append]

/-- Characters are counted, of however many bytes. -/
theorem shorten_within_iff_accents : let t : Text := "éàüöß"
    4 < t.length ∧ shorten 4 t = "é..." ∧ t.length ≤ 5 ∧ shorten 5 t = t ∧ 2 < t.length ∧ shorten 2 t = "..." := by
  intro t
  have long : 4 < t.length := by decide
  have fits : t.length ≤ 5 := by decide
  exact ⟨long, ((shorten_within_iff 4 t).2.2.1 long (by decide)).1, fits, (shorten_within_iff 5 t).2.1 fits, by decide,
    (shorten_within_iff 2 t).2.2.2 (by decide) (by decide)⟩

/-- No limit holds back the ellipsis. -/
theorem shorten_not_within : shorten 0 "abcd" = "..." ∧ ¬ (shorten 0 "abcd").length ≤ 0 := by
  decide

end NotebookPages.Text
