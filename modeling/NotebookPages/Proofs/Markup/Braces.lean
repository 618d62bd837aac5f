import NotebookPages.Proofs.Markup.FencedLines
import NotebookPages.Proofs.Markup.Welding

/-! Braces in what is written for MDX. A pass keeps the escapes that it finds and writes a backslash in front of every other
brace, so a brace stands behind an odd number of backslashes. The induction over a line carries whether the backslashes
written last are odd in number. -/

namespace NotebookPages.Markup

open Piece

def isBrace (c : Char) : Bool := c == '\x7b' || c == '\x7d'

/-- The length of the run of backslashes that ends a text. -/
def slashes (t : Text) : Nat := (t.reverse.takeWhile (· == '\\')).length

/-- Whether an odd number of backslashes precedes what follows the text, if `odd` says so of the text itself. -/
def oddAfter (odd : Bool) (t : Text) : Bool := t.foldl (fun odd c => c == '\\' && !odd) odd

/-- Every brace stands behind an odd number of backslashes; `odd` says whether such a number precedes the text. -/
def Guarded (odd : Bool) : Text → Prop
  | [] => True
  | c :: rest => (isBrace c = true → odd = true) ∧ Guarded (c == '\\' && !odd) rest

variable {q : Bool} {b : Option Char} {c : Char} {a r s t v w : Text} {p : Piece} {ps : List Piece} {flags : List Bool}
  {last : Option Char} {afterText odd : Bool} {n limit number : Nat}

theorem guarded_append : Guarded odd (v ++ w) ↔ Guarded odd v ∧ Guarded (oddAfter odd v) w := by
  induction v generalizing odd with
  | nil => exact (iff_of_eq (true_and _)).symm
  | cons c v ih =>
    rw [List.cons_append, Guarded, Guarded, ih, and_assoc]
    rfl

/-- What begins with neither a brace nor a backslash is guarded whatever precedes it. -/
theorem Guarded.of_head (guarded : Guarded odd w) (plain : w.head?.any Text.isPunctuation = false) (odd' : Bool) : Guarded odd' w := by
  cases w with
  | nil => trivial
  | cons c w =>
    have other : Text.isPunctuation c = false := plain
    have noSlash : (c == '\\') = false := by
      rw [beq_eq_false_iff_ne]
      rintro rfl
      exact absurd other (by decide)
    have noBrace : isBrace c = false := by
      rw [isBrace, Bool.or_eq_false_iff, beq_eq_false_iff_ne, beq_eq_false_iff_ne]
      constructor <;> rintro rfl <;> exact absurd other (by decide)
    obtain ⟨-, behind⟩ := guarded
    rw [noSlash, Bool.false_and] at behind
    refine ⟨fun brace => ?_, ?_⟩
    · rw [noBrace] at brace
      cases brace
    · rwa [noSlash, Bool.false_and]

theorem slashes_concat (t : Text) (c : Char) : slashes (t ++ [c]) = if c == '\\' then slashes t + 1 else 0 := by
  rw [slashes, List.reverse_append, List.reverse_singleton, List.singleton_append, List.takeWhile_cons]
  split
  · rfl
  · rfl

theorem Guarded.slashes_odd (front : Text) (guarded : Guarded (slashes front % 2 == 1) w) {before after : Text}
    (shape : w = before ++ c :: after) (brace : isBrace c = true) : slashes (front ++ before) % 2 = 1 := by
  induction before generalizing front w with
  | nil =>
    subst shape
    rw [List.append_nil]
    exact beq_iff_eq.mp (guarded.1 brace)
  | cons e before ih =>
    subst shape
    obtain ⟨-, behind⟩ := guarded
    have next : (e == '\\' && !(slashes front % 2 == 1)) = (slashes (front ++ [e]) % 2 == 1) := by
      rw [slashes_concat]
      cases slash : e == '\\' with
      | false => rfl
      | true =>
        rw [Bool.true_and, if_pos rfl, ← Bool.coe_iff_coe]
        simp only [Bool.not_eq_true', beq_eq_false_iff_ne, beq_iff_eq]
        omega
    rw [next] at behind
    have later := ih (front ++ [e]) behind rfl
    rwa [List.append_assoc] at later

/-- What a line without backticks, markup and comments can hold. -/
structure Unmarked (s : Text) : Prop where
  noTick : '`' ∉ s
  noAngle : '<' ∉ s
  noComment : ¬ ['\x7b', '/', '*'] <:+: s

theorem Unmarked.behind (unmarked : Unmarked (a ++ r)) : Unmarked r where
  noTick inside := unmarked.noTick (List.mem_append_right a inside)
  noAngle inside := unmarked.noAngle (List.mem_append_right a inside)
  noComment comment := unmarked.noComment (comment.trans (List.suffix_append a r).isInfix)

/-- `v` is written where `r` follows: its braces are guarded, and a backslash left at its end meets no mark. -/
structure Settles (r v : Text) : Prop where
  guarded : Guarded false v
  final : oddAfter false v = true → v.getLast? = some '\\' ∧ r.head?.any Text.isPunctuation = false

/-- A text without braces and backslashes is guarded, and no backslash is left at its end. -/
theorem guarded_of_plain (plain : ∀ c ∈ v, c ≠ '\\' ∧ isBrace c = false) : Guarded false v ∧ oddAfter false v = false := by
  induction v with
  | nil => exact ⟨trivial, rfl⟩
  | cons c v ih =>
    obtain ⟨⟨noSlash, noBrace⟩, others⟩ := List.forall_mem_cons.mp plain
    obtain ⟨guarded, even⟩ := ih others
    have stop : (c == '\\' && !false) = false := by rw [beq_eq_false_iff_ne.mpr noSlash, Bool.false_and]
    refine ⟨⟨fun brace => ?_, ?_⟩, ?_⟩
    · rw [noBrace] at brace
      cases brace
    · rwa [stop]
    · rw [oddAfter, List.foldl_cons, stop]
      exact even

theorem settles_plain (plain : ∀ c ∈ v, c ≠ '\\' ∧ isBrace c = false) : Settles r v := by
  obtain ⟨guarded, even⟩ := guarded_of_plain plain
  refine ⟨guarded, fun odd => ?_⟩
  rw [even] at odd
  cases odd

theorem settles_one (noSlash : c ≠ '\\') (noBrace : isBrace c = false) : Settles r [c] :=
  settles_plain fun _ inside => List.mem_singleton.mp inside ▸ ⟨noSlash, noBrace⟩

theorem settles_escape (c : Char) : Settles r ['\\', c] := by
  constructor
  · exact ⟨fun brace => absurd brace (by decide), fun _ => rfl, trivial⟩
  · intro odd
    simp [oddAfter] at odd

/-- A piece of such a line is text, which is kept or escaped. -/
theorem Token.settles (token : Token .mdx q b a r p) (unmarked : Unmarked (a ++ r)) : ∃ v problem, p = .text a v problem ∧ Settles r v := by
  have noTick : '`' ∉ a := fun inside => unmarked.noTick (List.mem_append_left r inside)
  have noAngle : '<' ∉ a := fun inside => unmarked.noAngle (List.mem_append_left r inside)
  cases token with
  | @plain c _ ordinary =>
    simp only [isSpecial, Bool.or_eq_false_iff, beq_eq_false_iff_ne, BEq.rfl, Bool.true_and] at ordinary
    refine ⟨_, _, rfl, settles_one ordinary.1.1.1.1.1 ?_⟩
    rw [isBrace, Bool.or_eq_false_iff, beq_eq_false_iff_ne, beq_eq_false_iff_ne]
    exact ordinary.2.1
  | backslash alone => exact ⟨_, _, rfl, ⟨fun brace => absurd brace (by decide), trivial⟩, fun _ => ⟨rfl, alone⟩⟩
  | @escape m => exact ⟨_, _, rfl, settles_escape m⟩
  | code span =>
    obtain ⟨x, rfl⟩ := span.starts
    exact absurd List.mem_cons_self noTick
  | @ticks n _ positive =>
    obtain ⟨n, rfl⟩ := Nat.exists_eq_succ_of_ne_zero (Nat.ne_of_gt positive)
    exact absurd List.mem_cons_self noTick
  | comment _ whole =>
    obtain ⟨x, rfl⟩ := whole.startsWith
    exact absurd ⟨[], x ++ r, rfl⟩ unmarked.noComment
  | @brace c => exact ⟨_, _, rfl, settles_escape c⟩
  | bang | bracket | quote => exact ⟨_, _, rfl, settles_one (by decide) (by decide)⟩
  | link => exact ⟨_, _, rfl, settles_plain (v := imageOmitted) (Text.forall_mem_of_all (by decide))⟩
  | greater => exact ⟨_, _, rfl, settles_plain (Text.forall_mem_of_all (by decide))⟩
  | angle markdown | keptComment markdown | keptAutolink markdown => cases markdown
  | less | htmlComment | declaration | autolink => exact absurd List.mem_cons_self noAngle
  | tag spelled | dataImage spelled =>
    obtain ⟨x, rfl⟩ := spelled.closes
    exact absurd List.mem_cons_self noAngle

/-- Every brace that is written for such a line is guarded. -/
theorem guarded_weld (reading : Reading .mdx [] q b s ps) (unmarked : Unmarked s) :
    Guarded false (weld .mdx last false afterText (settle flags ps)) := by
  induction reading generalizing last afterText flags with
  | done => trivial
  | @more _ _ a r _ ps token rest ih =>
    rw [List.append_nil] at token
    obtain ⟨v, problem, rfl, settles⟩ := token.settles unmarked
    rw [settle_text, weld_text, space_of_tight, List.nil_append, guarded_append]
    refine ⟨settles.guarded, ?_⟩
    cases odd : oddAfter false v with
    | false => exact ih unmarked.behind
    | true =>
      -- the backslash that is left stands before no mark, and what is written next begins as the source does
      obtain ⟨ends, plain⟩ := settles.final odd
      rw [ends]
      have start : SameStart r (weld .mdx (some '\\') false true (settle flags ps)) := sameStart_weld (by decide) rest flags
      exact (ih unmarked.behind).of_head (start.plain plain) true

/-- The backslash in front of what would be a fence guards no brace and leaves none unguarded. -/
theorem Guarded.guardFence (guarded : Guarded false w) : Guarded false (Line.guardFence w) := by
  cases found : Fence.open? w with
  | none => rwa [guardFence_of_none found]
  | some fence =>
    obtain ⟨blanks, info, opening⟩ := Fence.open?_sound found
    obtain ⟨n, long⟩ := opening.exists_length
    have marker : fence.marker ≠ '\\' ∧ isBrace fence.marker = false := by
      rcases opening.marker with same | same <;> rw [same] <;> decide
    have shape := opening.shape
    rw [long, List.replicate_succ, List.cons_append] at shape
    rw [Fence.Opening.guardFence opening, long, List.replicate_succ, List.cons_append]
    rw [shape, guarded_append] at guarded
    rw [guarded_append]
    obtain ⟨front, -, behind⟩ := guarded
    have noSlash : (fence.marker == '\\') = false := beq_eq_false_iff_ne.mpr marker.1
    rw [noSlash, Bool.false_and] at behind
    refine ⟨front, fun brace => absurd brace (by decide), fun brace => ?_, ?_⟩
    · rw [marker.2] at brace
      cases brace
    · rwa [noSlash, Bool.false_and]

/-- Where a source line has no backtick, no `<` and no beginning of a comment, every brace on the line of prose written for it
stands behind a run of backslashes of odd length, unless a note stands for the line. -/
theorem braces_sanitize {source written : Text} (here : (Text.splitLines t)[number]? = some source)
    (there : (Text.splitLines (sanitize ⟨.mdx, limit⟩ t))[number]? = some written)
    (prose : Fence.isProse (Fence.holding (sanitize ⟨.mdx, limit⟩ t) number) written = true) (noTick : '`' ∉ source)
    (noAngle : '<' ∉ source) (noComment : ¬ ['\x7b', '/', '*'] <:+: source) :
    written = Dialect.mdx.comment longLineNote ∨
      ∀ before c after, written = before ++ c :: after → c = '\x7b' ∨ c = '\x7d' → slashes before % 2 = 1 := by
  rw [holding_sanitize] at prose
  rw [splitLines_sanitize, List.getElem?_map, Option.map_eq_some_iff] at there
  obtain ⟨l, line, rfl⟩ := there
  obtain ⟨source', same, settled⟩ := (passed_run ⟨.mdx, limit⟩ t).settled line
  obtain rfl : source = source' := Option.some.inj (here.symm.trans same)
  cases settled with
  | fenced inside =>
    rw [Fence.holding, Line.render] at prose
    rw [prose] at inside
    cases inside
  | replaced => exact Or.inl rfl
  | prose flags =>
    right
    intro before c after shape brace
    have guarded : Guarded false (Piece.weld .mdx none false false (Piece.settle flags (scanLine .mdx source))) :=
      guarded_weld (reading_scan .mdx true none source) ⟨noTick, noAngle, noComment⟩
    have marked : isBrace c = true := by
      rw [isBrace, Bool.or_eq_true, beq_iff_eq, beq_iff_eq]
      exact brace
    exact Guarded.slashes_odd [] guarded.guardFence shape marked

/-- Escapes, expressions, a link, and a backslash that stands for itself. -/
def bracedLine : Text := "\\\x7b \\\\\x7b \\\\\\\x7d [x](data:,) \\a\x7d"

def bracedLineWritten : Text := "\\\x7b \\\\\\\x7b \\\\\\\x7d _(embedded image omitted)_ \\a\\\x7d"

theorem braces_sanitize_bracedLine :
    (Text.splitLines bracedLine)[0]? = some bracedLine ∧
      (Text.splitLines (sanitize ⟨.mdx, 80⟩ bracedLine))[0]? = some bracedLineWritten ∧
      Fence.isProse (Fence.holding (sanitize ⟨.mdx, 80⟩ bracedLine) 0) bracedLineWritten = true ∧
      '`' ∉ bracedLine ∧ '<' ∉ bracedLine ∧ (¬ ['\x7b', '/', '*'] <:+: bracedLine) ∧
      ∀ before c after, bracedLineWritten = before ++ c :: after → c = '\x7b' ∨ c = '\x7d' → slashes before % 2 = 1 := by
  have here : (Text.splitLines bracedLine)[0]? = some bracedLine := by decide +kernel
  have there : (Text.splitLines (sanitize ⟨.mdx, 80⟩ bracedLine))[0]? = some bracedLineWritten := by decide +kernel
  have prose : Fence.isProse (Fence.holding (sanitize ⟨.mdx, 80⟩ bracedLine) 0) bracedLineWritten = true := by decide +kernel
  have noComment : ¬ ['\x7b', '/', '*'] <:+: bracedLine := by decide +kernel
  refine ⟨here, there, prose, by decide, by decide, noComment, ?_⟩
  exact (braces_sanitize here there prose (by decide) (by decide) noComment).resolve_left (by decide +kernel)

end NotebookPages.Markup
