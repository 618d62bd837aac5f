import NotebookPages.Proofs.Markup.Balance

/-! Well-nested tags, told by the names that are open. They are the balanced ones, so the tags that pairing keeps are well
nested, and pairing removes none where all of them already are. -/

namespace NotebookPages.Markup

/-- Each closing tag ends the tag that was opened last and is still open, and none stays open. The names in `opened` are
open before the tags, the last one first. -/
def Nested (opened : List Text) : List Tag → Prop
  | [] => opened = []
  | t :: rest =>
    match t.kind with
    | .selfClosing => Nested opened rest
    | .opening => Nested (t.name :: opened) rest
    | .closing =>
      match opened with
      | [] => False
      | name :: outer => t.name = name ∧ Nested outer rest

variable {opened outer : List Text} {name : Text} {ts us rest : List Tag} {t : Tag} {p : Pairing} {entries : List (Tag × Nat)} {i n : Nat}

theorem nested_selfClosing (kind : t.kind = .selfClosing) : Nested opened (t :: rest) ↔ Nested opened rest := by
  simp only [Nested, kind]

theorem nested_opening (kind : t.kind = .opening) : Nested opened (t :: rest) ↔ Nested (t.name :: opened) rest := by
  simp only [Nested, kind]

theorem nested_closing (kind : t.kind = .closing) :
    Nested (name :: outer) (t :: rest) ↔ t.name = name ∧ Nested outer rest := by
  simp only [Nested, kind]

theorem not_nested_closing (kind : t.kind = .closing) : ¬ Nested [] (t :: rest) := by
  simp only [Nested, kind]
  exact not_false

/-- Balanced tags leave open what was open before them. -/
theorem Balanced.nested_append (balanced : Balanced ts) : Nested opened (ts ++ us) ↔ Nested opened us := by
  induction balanced generalizing opened us with
  | nil => exact Iff.rfl
  | single kind _ ih => exact (nested_selfClosing kind).trans ih
  | pair opens closes same _ _ within ih =>
    rw [List.cons_append, List.append_assoc, nested_opening opens, within, List.cons_append, nested_closing closes, ih]
    exact and_iff_right same

/-- The tag opened last is closed behind balanced tags. -/
theorem Nested.exists_closing (nested : Nested (name :: outer) ts) :
    ∃ inner c rest, ts = inner ++ c :: rest ∧ Balanced inner ∧ c.kind = .closing ∧ c.name = name ∧ Nested outer rest := by
  induction length : ts.length using Nat.strongRecOn generalizing ts name outer with
  | ind size ih =>
    subst length
    cases ts with
    | nil => cases nested
    | cons t rest =>
      cases kind : t.kind with
      | selfClosing =>
        have later := (nested_selfClosing kind).mp nested
        obtain ⟨inner, c, behind, rfl, balanced, closes⟩ := ih _ (Nat.lt_succ_self _) later rfl
        exact ⟨t :: inner, c, behind, rfl, .single kind balanced, closes⟩
      | closing =>
        obtain ⟨same, later⟩ := (nested_closing kind).mp nested
        exact ⟨[], t, rest, rfl, .nil, kind, same, later⟩
      | opening =>
        -- the tag opened here is closed first, and then the one that was open before it
        have later := (nested_opening kind).mp nested
        obtain ⟨inner, c, middle, rfl, within, closes, same, others⟩ := ih _ (Nat.lt_succ_self _) later rfl
        have shorter : middle.length < (t :: (inner ++ c :: middle)).length := by
          simp only [List.length_cons, List.length_append]
          omega
        obtain ⟨inner', c', behind, rfl, balanced, final⟩ := ih _ shorter others rfl
        refine ⟨t :: (inner ++ c :: inner'), c', behind, ?_, .pair kind closes same within balanced, final⟩
        simp

/-- Tags are well nested exactly if they are balanced. -/
theorem nested_iff_balanced : Nested [] ts ↔ Balanced ts := by
  constructor
  · intro nested
    induction length : ts.length using Nat.strongRecOn generalizing ts with
    | ind size ih =>
      subst length
      cases ts with
      | nil => exact .nil
      | cons t rest =>
        cases kind : t.kind with
        | selfClosing => exact .single kind (ih _ (Nat.lt_succ_self _) ((nested_selfClosing kind).mp nested) rfl)
        | closing => exact absurd nested (not_nested_closing kind)
        | opening =>
          obtain ⟨inner, c, behind, rfl, within, closes, same, later⟩ := ((nested_opening kind).mp nested).exists_closing
          have shorter : behind.length < (t :: (inner ++ c :: behind)).length := by
            simp only [List.length_cons, List.length_append]
            omega
          exact .pair kind closes same within (ih _ shorter later rfl)
  · intro balanced
    have whole : Nested [] (ts ++ []) ↔ Nested [] [] := balanced.nested_append
    rw [List.append_nil] at whole
    exact whole.mpr rfl

namespace Pairing

theorem kept_step (member : i ∈ p.kept) (t : Tag) (n : Nat) : i ∈ (p.step t n).kept := by
  unfold step
  split
  next => exact List.mem_cons_of_mem n member
  next => exact member
  next =>
    split
    next => exact member
    next => exact List.mem_cons_of_mem _ (List.mem_cons_of_mem _ member)

theorem kept_run (member : i ∈ p.kept) (entries : List (Tag × Nat)) :
    i ∈ (entries.foldl (fun p (tag, i) => p.step tag i) p).kept := by
  induction entries generalizing p with
  | nil => exact member
  | cons entry entries ih => exact ih (kept_step member entry.1 entry.2)

theorem kept_of_selfClosing (member : (t, i) ∈ entries) (kind : t.kind = .selfClosing) (p : Pairing) :
    i ∈ (entries.foldl (fun p (tag, i) => p.step tag i) p).kept := by
  induction entries generalizing p with
  | nil => cases member
  | cons entry entries ih =>
    rcases List.mem_cons.mp member with rfl | later
    · have taken : p.step t i = ⟨p.pending, i :: p.kept⟩ := by simp only [step, kind]
      have kept : i ∈ (p.step t i).kept := taken ▸ List.mem_cons_self
      exact kept_run kept entries
    · exact ih later (p.step entry.1 entry.2)

end Pairing

theorem keepFlags_of_selfClosing (here : ts[i]? = some t) (kind : t.kind = .selfClosing) : (keepFlags ts)[i]? = some true := by
  have entry : ts.zipIdx[i]? = some (t, i) := by rw [List.getElem?_zipIdx, here, Option.map_some, Nat.zero_add]
  have kept := Pairing.kept_of_selfClosing (List.mem_of_getElem? entry) kind .start
  rw [keepFlags, List.getElem?_map, entry, Option.map_some]
  exact congrArg some (List.contains_iff_mem.mpr kept)

theorem keep_replicate (ts : List Tag) : keep (List.replicate ts.length true) ts = ts := by
  induction ts with
  | nil => rfl
  | cons t ts ih => exact congrArg (t :: ·) ih

/-- Pairing keeps every self-closing tag, what it keeps is well nested, and it keeps all tags exactly if they are well
nested already. -/
theorem nested_keepFlags (ts : List Tag) :
    (∀ (i : Nat) (t : Tag), ts[i]? = some t → t.kind = .selfClosing → (keepFlags ts)[i]? = some true) ∧
      Nested [] (keep (keepFlags ts) ts) ∧ (keepFlags ts = List.replicate ts.length true ↔ Nested [] ts) := by
  refine ⟨fun i t here kind => keepFlags_of_selfClosing here kind, nested_iff_balanced.mpr (balanced_keep ts), ?_⟩
  constructor
  · intro all
    have kept := balanced_keep ts
    rw [all, keep_replicate] at kept
    exact nested_iff_balanced.mpr kept
  · intro nested
    exact (nested_iff_balanced.mp nested).keepFlags_eq

/-- The closing tag of an outer element takes the inner opening tag for unpaired, and the one after it has nothing to close. -/
example : keepFlags (["<a>", "<b>", "<br>", "</a>", "</b>"].filterMap fun s : String => (Tag.read? s).map Prod.fst) =
    [true, false, true, true, false] := by decide

end NotebookPages.Markup
