import NotebookPages.Proofs.Markup.Found

/-! Prose behind something else on its first line. What stands in front is read as it stands, and it matters only to what would
be a quotation without it. -/

namespace NotebookPages.Markup

variable {α : Type} {f : Piece → Option α} {d : Dialect} {q : Bool} {b x : Option Char} {c : Char} {r s t u w : Text} {ps : List Piece}

/-- The line begins with a mark of quotation that touches no letter, so it is bare where something else stands in front of it. -/
def quotes : Text → Bool
  | [] => false
  | c :: rest => if c == '>' then !rest.head?.any Text.isLetter || quotes rest else Text.isBlank c && quotes rest

theorem nextPiece_of_ne (other : c ≠ '>') (d : Dialect) (q q' : Bool) (b x : Option Char) (r : Text) :
    nextPiece d q b c r = nextPiece d q' x c r := by
  unfold nextPiece
  split <;> first | rfl | exact absurd rfl other

/-- A mark of quotation at the start of a line is kept; elsewhere it is kept before a letter only. -/
theorem scanFrom_lead (lead : isLead c = true) (quiet : c = '>' → r.head?.any Text.isLetter = true ∨ q = true) :
    scanFrom .mdx 0 q b (c :: r) = .plain [c] :: scanFrom .mdx 0 q (some c) r := by
  have token : Token .mdx q b [c] r (.plain [c]) := by
    by_cases mark : c = '>'
    · subst mark
      refine .quote rfl ?_
      rcases quiet rfl with letter | quoting <;> simp [keepsGreater, *]
    · have blank : Text.isBlank c = true := by simpa [isLead, mark] using lead
      exact .plain (isSpecial_of_isBlank blank)
  have line := scanFrom_token token
  rw [List.all_cons, lead, List.all_nil, Bool.and_true, Bool.and_true] at line
  exact line

/-- Behind something else a line that does not begin with a quotation is read as it is by itself. -/
theorem scanFrom_unquoted (plain : quotes w = false) (calm : b.any Text.isLetter = false) (calm' : x.any Text.isLetter = false) :
    scanFrom .mdx 0 false b w = scanFrom .mdx 0 true x w := by
  induction w generalizing b x with
  | nil => rfl
  | cons c w ih =>
    rw [quotes] at plain
    by_cases mark : c = '>'
    · subst mark
      rw [if_pos (by decide), Bool.or_eq_false_iff, Bool.not_eq_false'] at plain
      rw [scanFrom_lead (by decide) fun _ => Or.inl plain.1, scanFrom_lead (by decide) fun _ => Or.inr rfl,
        ih plain.2 (b := some '>') (x := some '>') (by decide) (by decide)]
    · rw [if_neg (by simpa using mark)] at plain
      cases blank : Text.isBlank c with
      | true =>
        rw [blank, Bool.true_and] at plain
        have lead : isLead c = true := by rw [isLead, blank, Bool.true_or]
        have calm : (some c).any Text.isLetter = false := Text.not_isLetter_of_isBlank blank
        rw [scanFrom_lead lead fun same => absurd same mark, scanFrom_lead lead fun same => absurd same mark, ih plain calm calm]
      | false =>
        have stop : (Text.isBlank c || c == '>') = false := by rw [blank, Bool.false_or, beq_eq_false_iff_ne.mpr mark]
        rw [scanFrom, scanFrom, nextPiece_of_ne mark .mdx false true b x, stop, Bool.and_false, Bool.and_false]

/-- Behind something else a quotation is a problem. -/
theorem bare_of_quotes (quoting : quotes w = true) (calm : b.any Text.isLetter = false) :
    .bareAngleBracket ∈ (scanFrom .mdx 0 false b w).filterMap Piece.problem? := by
  induction w generalizing b with
  | nil => cases quoting
  | cons c w ih =>
    rw [quotes] at quoting
    by_cases mark : c = '>'
    · subst mark
      rw [if_pos (by decide), Bool.or_eq_true, Bool.not_eq_true'] at quoting
      cases letter : w.head?.any Text.isLetter with
      | true =>
        have later := quoting.resolve_left (by rw [letter]; exact Bool.noConfusion)
        rw [scanFrom_lead (by decide) fun _ => Or.inl letter]
        exact ih later (by decide)
      | false =>
        have token : Token .mdx false b ['>'] w (.text ['>'] ['&', 'g', 't', ';'] (some .bareAngleBracket)) :=
          .greater rfl (by rw [keepsGreater, calm, letter]; rfl)
        rw [show '>' :: w = ['>'] ++ w from rfl, scanFrom_token token]
        exact List.mem_cons_self
    · rw [if_neg (by simpa using mark), Bool.and_eq_true] at quoting
      have lead : isLead c = true := by rw [isLead, quoting.1, Bool.true_or]
      rw [scanFrom_lead lead fun same => absurd same mark]
      exact ih quoting.2 (Text.not_isLetter_of_isBlank quoting.1)

/-- The first line of a text. -/
def firstLine (t : Text) : Text := (Text.splitLines t).headD []

/-- Text that is read as it stands wherever it is: marks of markup stand behind backslashes. -/
inductive Calm : Text → Prop where
  | nil : Calm []
  | ordinary {c : Char} {s : Text} (plain : isSpecial .mdx c = false) (rest : Calm s) : Calm (c :: s)
  | bang {s : Text} (rest : Calm s) : Calm ('!' :: s)
  | escape {m : Char} {s : Text} (mark : Text.isPunctuation m = true) (rest : Calm s) : Calm ('\\' :: m :: s)

theorem Calm.head?_ne (calm : Calm s) (stop : r.head? ≠ some '[') : (s ++ r).head? ≠ some '[' := by
  cases calm with
  | nil => exact stop
  | ordinary plain =>
    intro same
    obtain rfl := Option.some.inj same
    cases plain
  | bang | escape => simp

theorem Calm.readsFlat (calm : Calm s) (stop : r.head? ≠ some '[') : ReadsFlat .mdx r q b s := by
  induction calm generalizing q b with
  | nil => exact ⟨[], .done, flat_nil⟩
  | @ordinary c s plain _ ih => exact ReadsFlat.append (a := [c]) (.single (.plain plain)) ih
  | @bang s rest ih =>
    have noLink : afterDataLink? (s ++ r) = none := by
      cases found : afterDataLink? (s ++ r) with
      | none => rfl
      | some after =>
        obtain ⟨y, shape⟩ := afterDataLink?_sound found
        exact absurd (by rw [shape]; rfl) (rest.head?_ne stop)
    exact ReadsFlat.append (a := ['!']) (.single (.bang noLink)) ih
  | @escape m s mark _ ih => exact ReadsFlat.append (a := ['\\', m]) (.single (.escape mark)) ih

theorem Silent.of_flat (silent : Silent f) (flat : Flat d ps) : ps.filterMap f = [] := by
  rw [List.filterMap_eq_nil_iff]
  intro p member
  obtain ⟨literal, untagged⟩ := flat p member
  cases p with
  | text source written problem =>
    obtain ⟨rfl, rfl⟩ := literal
    exact silent written
  | tag => cases untagged
  | dropped | stray => cases literal

/-- Nothing is found in a line that is read as it stands. -/
theorem found_of_flat (silent : Silent f) (line : Text.IsLine u) (flat : ReadsFlat .mdx [] true none u) :
    found .mdx f none (Text.splitLines u) = [] := by
  obtain ⟨ps, reading, flat⟩ := flat
  have whole : scanLine .mdx u = ps := reading.scan_eq
  rw [Text.splitLines_line line, found_cons, whole, silent.of_flat flat, ite_self]
  rfl

/-- The line goes on behind the text, which opens no fence and is read as it stands. -/
structure Front (u : Text) : Prop where
  line : Text.IsLine u
  prose : ∀ w, Fence.open? (u ++ w) = none
  flat : ∀ w, ReadsFlat .mdx w true none u
  lead : u.all isLead = false
  last : u.getLast? = some ' '

theorem Front.lines (front : Front u) (t : Text) : ∃ more, Text.splitLines t = firstLine t :: more ∧
    Text.splitLines (u ++ t) = (u ++ firstLine t) :: more := by
  obtain ⟨first, more, shape, whole⟩ := Text.splitLines_prepend front.line t
  have same : firstLine t = first := by rw [firstLine, shape]; rfl
  exact ⟨more, by rw [same, shape], by rw [same, whole]⟩

/-- Behind the text a line is read like one that begins with something else than a quotation. -/
theorem Front.reads (front : Front u) (w : Text) :
    ∃ ps, Flat .mdx ps ∧ scanLine .mdx (u ++ w) = ps ++ scanFrom .mdx 0 false (some ' ') w := by
  obtain ⟨ps, reading, flat⟩ := front.flat (w ++ [])
  refine ⟨ps, flat, ?_⟩
  have line := (reading.append (reading_scan .mdx _ _ w)).scan_eq
  rw [front.lead, front.last] at line
  exact line

/-- Behind the text the first line is prose whatever it begins with. -/
theorem Front.found_behind (front : Front u) (silent : Silent f) (t : Text) : found .mdx f none (Text.splitLines (u ++ t)) =
    (scanFrom .mdx 0 false (some ' ') (firstLine t)).filterMap f ++ found .mdx f none (Text.splitLines t).tail := by
  obtain ⟨more, shape, whole⟩ := front.lines t
  obtain ⟨ps, flat, line⟩ := front.reads (firstLine t)
  have prose : Fence.isProse .none (u ++ firstLine t) = true := by rw [Fence.isProse, front.prose]; rfl
  rw [whole, shape, found_cons, if_pos prose, line, List.filterMap_append, silent.of_flat flat, List.nil_append, Fence.next, front.prose]
  rfl

/-- What is found behind the text is found without it, unless the first line opens a fence or begins with a quotation. -/
theorem Front.found_of_unquoted (front : Front u) (silent : Silent f) (opens : Fence.open? (firstLine t) = none)
    (plain : quotes (firstLine t) = false) : found .mdx f none (Text.splitLines (u ++ t)) = found .mdx f none (Text.splitLines t) := by
  obtain ⟨more, shape, -⟩ := front.lines t
  have prose : Fence.isProse .none (firstLine t) = true := by rw [Fence.isProse, opens]; rfl
  rw [front.found_behind silent, scanFrom_unquoted plain (x := none) (by decide) rfl, shape, found_cons, if_pos prose, Fence.next, opens]
  rfl

/-- Behind the text a quotation is a problem. -/
theorem Front.unquoted (front : Front u) (clean : Clean (found .mdx Piece.problem? none (Text.splitLines (u ++ t)))) :
    quotes (firstLine t) = false := by
  rw [← Bool.not_eq_true]
  intro quoting
  rw [front.found_behind silent_problem] at clean
  have bare := bare_of_quotes quoting (b := some ' ') (by decide)
  exact Problem.noConfusion (clean .bareAngleBracket (List.mem_append_left _ bare))

/-- What marks a heading of a level. -/
def mark (level : Nat) : Text := List.replicate level '#' ++ [' ']

theorem front_mark (level : Nat) : Front (mark (level + 1)) := by
  have chars : ∀ c ∈ mark (level + 1), c = '#' ∨ c = ' ' := by
    intro c inside
    rcases List.mem_append.mp inside with inside | inside
    · exact Or.inl (List.eq_of_mem_replicate inside)
    · exact Or.inr (List.mem_singleton.mp inside)
  constructor
  · intro newline
    rcases chars '\n' newline with same | same <;> cases same
  · intro w
    exact Fence.open?_eq_none_of_head (c := '#') rfl (by decide)
  · intro w
    apply ReadsFlat.ordinary
    intro c inside
    rcases chars c inside with rfl | rfl <;> decide
  · rfl
  · rw [mark, List.getLast?_append]
    rfl

end NotebookPages.Markup
