import NotebookPages.Proofs.Markup.SimpleText

/-! Links to data URLs that begin in a text and end beyond it. A text with nothing but brackets that reach ahead is read the same
whatever follows it, unless such a link begins in it. -/

namespace NotebookPages.Markup

open Piece

/-- A link to a data URL begins in the text and ends beyond it, where `after` follows. Links are taken from the left, and the first
`skip` characters belong to one already taken. -/
def overruns (after : Text) (skip : Nat) : Text → Bool
  | [] => 0 < skip
  | c :: rest =>
    match skip with
    | n + 1 => overruns after n rest
    | 0 =>
      match afterDataLink? (c :: (rest ++ after)) with
      | some behind => overruns after ((rest ++ after).length - behind.length) rest
      | none => overruns after 0 rest

variable {rules : Rules} {d : Dialect} {q : Bool} {b : Option Char} {c : Char} {a r s t x y after bang : Text} {p : Piece} {ps : List Piece}
  {n : Nat}

theorem overruns_append (x t : Text) : overruns after x.length (x ++ t) = overruns after 0 t := by
  induction x with
  | nil => rfl
  | cons c x ih => exact ih

theorem overruns_of_lt (short : t.length < n) : overruns after n t = true := by
  induction t generalizing n with
  | nil => exact decide_eq_true short
  | cons c t ih =>
    obtain ⟨n, rfl⟩ := Nat.exists_eq_succ_of_ne_zero (Nat.ne_of_gt (Nat.zero_lt_of_lt short))
    exact ih (Nat.lt_of_succ_lt_succ short)

theorem overruns_other (noLink : afterDataLink? (c :: (t ++ after)) = none) : overruns after 0 (c :: t) = overruns after 0 t := by
  rw [overruns]
  simp [noLink]

theorem overruns_link (found : afterDataLink? (c :: (x ++ t ++ after)) = some (t ++ after)) :
    overruns after 0 (c :: (x ++ t)) = overruns after 0 t := by
  have length : (x ++ t ++ after).length - (t ++ after).length = x.length := by simp
  rw [overruns]
  simp only [found, length]
  exact overruns_append x t

theorem overruns_beyond (found : afterDataLink? (c :: (x ++ (y ++ t))) = some t) (some : y ≠ []) : overruns (y ++ t) 0 (c :: x) = true := by
  have positive := List.length_pos_iff.mpr some
  rw [overruns]
  simp only [found]
  refine overruns_of_lt ?_
  simp only [List.length_append]
  omega

/-- The scanner comes to a link to a data URL that begins in `s` and ends in what follows. -/
inductive Overrun (d : Dialect) (q : Bool) (b : Option Char) (s after : Text) : Prop where
  | intro (front bang x y behind : Text) (ps : List Piece) (shape : s = front ++ (bang ++ '[' :: x)) (rest : after = y ++ behind)
      (beyond : y ≠ []) (mark : bang = [] ∨ bang = ['!']) (found : afterDataLink? ('[' :: (x ++ after)) = some behind)
      (reading : Reading d (bang ++ '[' :: x ++ after) q b front ps)

theorem Overrun.behind (token : Token d q b a (r ++ after) p)
    (later : Overrun d (q && a.all isLead) (a.getLast?.or b) r after) : Overrun d q b (a ++ r) after := by
  obtain ⟨front, bang, x, y, behind, ps, rfl, rest, beyond, mark, found, reading⟩ := later
  rw [List.append_assoc] at token
  exact ⟨a ++ front, bang, x, y, behind, p :: ps, (List.append_assoc ..).symm, rest, beyond, mark, found, .more token reading⟩

/-- A link whose source begins with such a text and goes on behind it. -/
theorem overrun_of_link (detached : Detached after) (mark : bang = [] ∨ bang = ['!']) (shape : bang ++ '[' :: x = s ++ y)
    (nonempty : s ≠ []) (beyond : y ≠ []) (rest : after = y ++ r) (found : afterDataLink? ('[' :: (x ++ r)) = some r) :
    overruns after 0 s = true ∧ Overrun d q b s after := by
  have link : ∀ {z}, x = z ++ y → overruns after 0 ('[' :: z) = true ∧ afterDataLink? ('[' :: (z ++ after)) = some r := by
    rintro z rfl
    rw [List.append_assoc] at found
    rw [rest]
    exact ⟨overruns_beyond found beyond, found⟩
  obtain ⟨c, s, rfl⟩ := List.exists_cons_of_ne_nil nonempty
  rcases mark with rfl | rfl
  · obtain ⟨rfl, same⟩ := List.cons.inj shape
    obtain ⟨reaches, found⟩ := link same
    exact ⟨reaches, [], [], s, y, r, [], rfl, rest, beyond, Or.inl rfl, found, .done⟩
  · obtain ⟨rfl, same⟩ := List.cons.inj shape
    cases s with
    | nil =>
      -- the bracket would stand first in what follows
      have first : after.head? = some '[' := by rw [rest, ← show '[' :: x = y from same]; rfl
      exact absurd rfl (detached '[' first).2
    | cons e s =>
      obtain ⟨rfl, same⟩ := List.cons.inj same
      obtain ⟨reaches, found⟩ := link (List.cons.inj same).2
      rw [overruns_other (afterDataLink?_of_head (by decide) _)]
      exact ⟨reaches, [], ['!'], s, y, r, [], rfl, rest, beyond, Or.inr rfl, found, .done⟩

/-- Where no link ends beyond such a text, it is read by itself. -/
theorem reading_or_overrun (simple : Simple s) (detached : Detached after) (q : Bool) (b : Option Char) :
    overruns after 0 s = false ∧ (∃ ps, Reading d after q b s ps) ∨ overruns after 0 s = true ∧ Overrun d q b s after := by
  induction length : s.length using Nat.strongRecOn generalizing q b s with
  | ind n ih =>
    cases s with
    | nil => exact Or.inl ⟨rfl, [], .done⟩
    | cons c s =>
      -- behind a first piece that stays in the text
      have step : ∀ {a r p}, c :: s = a ++ r → a ≠ [] → overruns after 0 (c :: s) = overruns after 0 r → Token d q b a (r ++ after) p →
          overruns after 0 (c :: s) = false ∧ (∃ ps, Reading d after q b (c :: s) ps) ∨
            overruns after 0 (c :: s) = true ∧ Overrun d q b (c :: s) after := by
        intro a r p shape nonempty same token
        have shorter : r.length < n := by
          have positive := List.length_pos_iff.mpr nonempty
          rw [← length, shape, List.length_append]
          omega
        rw [shape] at simple same ⊢
        rw [same]
        rcases ih _ shorter simple.behind (q && a.all isLead) (a.getLast?.or b) rfl with ⟨within, ps, reading⟩ | ⟨reaches, later⟩
        · exact Or.inl ⟨within, _, .more token reading⟩
        · exact Or.inr ⟨reaches, .behind token later⟩
      obtain ⟨z, r, whole, -, token⟩ := token_of_nextPiece (show nextPiece d q b c (s ++ after) = (_, _) from rfl)
      have first : ∀ e, (c :: z).head? = some e → e ∉ ['`', '\\', '<', '\x7b'] := by
        intro e same
        obtain rfl := Option.some.inj same
        exact simple.first
      have sides : (c :: s) ++ after = (c :: z) ++ r := congrArg (c :: ·) whole
      rcases token.of_simple first with ⟨e, v, problem, single, -, lone⟩ | ⟨bang, x, mark, link, -, found⟩
      · obtain ⟨rfl, rfl⟩ := List.cons.inj single
        obtain rfl : s ++ after = r := whole
        exact step (a := [c]) rfl (by simp) (overruns_other lone.noLink) token
      · rw [link] at sides token
        have contained : ∀ {w}, c :: s = bang ++ '[' :: x ++ w → r = w ++ after → overruns after 0 (c :: s) = overruns after 0 w := by
          rintro w shape rfl
          rw [← List.append_assoc] at found
          rw [shape]
          rcases mark with rfl | rfl
          · exact overruns_link found
          · rw [List.cons_append, List.nil_append, List.cons_append, overruns_other (afterDataLink?_of_head (by decide) _)]
            exact overruns_link found
        rcases List.append_eq_append_iff.mp sides with ⟨w, longer, rest⟩ | ⟨w, shape, rfl⟩
        · by_cases ends : w = []
          · subst ends
            have shape : c :: s = bang ++ '[' :: x ++ [] := by rw [longer, List.append_nil, List.append_nil]
            exact step shape (by simp) (contained shape rest.symm) (by rwa [rest])
          · exact Or.inr (overrun_of_link detached mark longer (by simp) ends rest found)
        · exact step shape (by simp) (contained shape rfl) token

theorem noLink_of_beyond {y behind : Text} (beyond : y ≠ []) (found : afterDataLink? ('[' :: (x ++ (y ++ behind))) = some behind) :
    afterDataLink? ('[' :: x) = none := by
  cases inner : afterDataLink? ('[' :: x) with
  | none => rfl
  | some rest =>
    have longer := afterDataLink?_append inner (y ++ behind)
    have same : rest ++ (y ++ behind) = behind := Option.some.inj (longer.symm.trans found)
    have length := congrArg List.length same
    have positive := List.length_pos_iff.mpr beyond
    simp only [List.length_append] at length
    omega

/-- Where no link begins at a bracket, the bracket or the mark before it is written. -/
theorem sanitize_bracket (reading : Reading rules.dialect (bang ++ '[' :: x) true none s ps) (simple : Simple (s ++ (bang ++ '[' :: x)))
    (mark : bang = [] ∨ bang = ['!']) (noLink : afterDataLink? ('[' :: x) = none) (oneLine : Text.IsLine (s ++ (bang ++ '[' :: x)))
    (prose : Fence.open? (s ++ (bang ++ '[' :: x) ++ after) = none) :
    ∃ m z, m ∈ ['!', '['] ∧ (sanitize rules (s ++ (bang ++ '[' :: x)) = ps.flatMap (chunk rules.dialect) ++ m :: z ∨
      sanitize rules (s ++ (bang ++ '[' :: x)) = rules.dialect.comment longLineNote) := by
  obtain ⟨m, z, shape, member, token⟩ : ∃ m z, bang ++ '[' :: x = m :: z ∧ m ∈ ['!', '['] ∧
      ∀ q b, Token rules.dialect q b [m] (z ++ []) (.plain [m]) := by
    rcases mark with rfl | rfl
    · exact ⟨'[', x, rfl, by simp, fun _ _ => .bracket (by rwa [List.append_nil])⟩
    · exact ⟨'!', '[' :: x, rfl, by simp, fun _ _ => .bang (by rwa [List.append_nil])⟩
  obtain ⟨qs, back⟩ : ∃ qs, Reading rules.dialect [] (true && s.all isLead) (s.getLast?.or none) (m :: z) (.plain [m] :: qs) :=
    ⟨_, .more (a := [m]) (token _ _) (reading_scan ..)⟩
  have whole : Reading rules.dialect [] true none (s ++ (bang ++ '[' :: x)) (ps ++ .plain [m] :: qs) := by
    refine Reading.append ?_ (shape ▸ back)
    rwa [List.append_nil]
  refine ⟨m, qs.flatMap (chunk rules.dialect), member, ?_⟩
  rw [sanitize_simple whole simple oneLine prose, List.flatMap_append, List.flatMap_cons]
  exact ite_eq_or_eq ..

/-- A link that ends beyond a text stands where the text, read by itself, has a bracket or the mark of an image. -/
theorem sanitize_of_overrun (overrun : Overrun rules.dialect true none s after) (simple : Simple s) (detached : Detached after)
    (oneLine : Text.IsLine (s ++ after)) (prose : Fence.open? (s ++ after) = none) :
    ∃ front m z w, m ∈ ['!', '['] ∧ (∀ e ∈ ['`', '<', '\x7b'], e ∉ front) ∧
      (sanitize rules s = front ++ m :: z ∨ sanitize rules s = rules.dialect.comment longLineNote) ∧
      (sanitize rules (s ++ after) = front ++ '_' :: w ∨ sanitize rules (s ++ after) = rules.dialect.comment longLineNote) := by
  obtain ⟨front, bang, x, y, behind, ps, rfl, rfl, beyond, mark, found, reading⟩ := overrun
  have alone := reading.alone simple.start detached
  obtain ⟨m, z, member, own⟩ := sanitize_bracket alone simple mark (noLink_of_beyond beyond found)
    (fun newline => oneLine (List.mem_append_left _ newline)) prose
  rw [List.append_assoc] at oneLine prose ⊢
  have shape : bang ++ '[' :: x ++ (y ++ behind) = bang ++ '[' :: (x ++ y) ++ behind := by simp
  have found' : afterDataLink? ('[' :: (x ++ y ++ behind)) = some behind := by rwa [List.append_assoc]
  obtain ⟨-, -, qs, -, -, flags, last, written⟩ := sanitize_link reading simple.start mark shape found' oneLine prose
  refine ⟨ps.flatMap (chunk rules.dialect), m, z, imageOmitted.tail ++ weld rules.dialect last false true (settle flags qs), member,
    fun e tick => not_mem_chunks reading simple.start tick, own, ?_⟩
  rw [written]
  exact ite_eq_or_eq ..

end NotebookPages.Markup
