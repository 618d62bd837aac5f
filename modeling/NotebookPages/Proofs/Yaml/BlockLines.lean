import NotebookPages.Proofs.Text.Cut
import NotebookPages.Proofs.Yaml.Plain
import NotebookPages.Proofs.Yaml.Quoted
import NotebookPages.Yaml.Node

/-! Scanning the lines of a block mapping. Each line is a key, a colon and a scalar, and takes three steps: the key is put
down as a possible key, the colon makes it one, and the first line opens the mapping. -/

namespace NotebookPages.Yaml

variable {c : Char} {after rest a : Text}

/-- A character with which a token may begin, wherever it stands. -/
structure Begins (c : Char) : Prop where
  white : isWhite c = false
  newline : isBreak c = false
  comment : c ≠ '#'
  mark : c ≠ '\ufeff'

/-- A character that begins a plain scalar wherever it stands. -/
structure BeginsPlain (c : Char) : Prop extends Begins c where
  indicator : Scanner.isIndicator c = false
  dot : c ≠ '.'

theorem ne_of_word {d : Char} (word : isWord c = true) (other : isWord d = false) : c ≠ d := by
  rintro rfl
  rw [other] at word
  cases word

theorem beginsPlain_of_word (word : isWord c = true) (dash : c ≠ '-') : BeginsPlain c where
  white := by simp [isWhite, ne_of_word word (d := ' ') rfl, ne_of_word word (d := '\t') rfl]
  newline := by
    simp [isBreak, ne_of_word word (d := '\n') rfl, ne_of_word word (d := '\u2028') rfl, ne_of_word word (d := '\u2029') rfl]
  comment := ne_of_word word rfl
  mark := ne_of_word word rfl
  indicator := by
    rw [← Bool.not_eq_true, Scanner.isIndicator, List.contains_iff_mem]
    intro member
    have each : ∀ d ∈ "-?:,[]\x7b\x7d#&*!|>'\"%@`".toList, isWord d = true → d = '-' := Text.forall_mem_of_all (by decide)
    exact dash (each c member word)
  dot := ne_of_word word rfl

namespace Scanner

variable {s s₁ s₂ : Scanner} {fuel : Nat} {column : Int}

theorem moveTo_append (whole : s.rest = a ++ rest) : s.moveTo rest = { s with rest, position := s.position.after a } := by
  rw [moveTo, whole, Text.upTo_append]

theorem moveTo_self : s.moveTo s.rest = s := by
  rw [moveTo_append (a := []) rfl]
  rfl

theorem toNextToken_nil (nothing : s.rest = []) : toNextToken (fuel + 1) s = s := by
  have same : s.moveTo [] = s := by rw [← nothing, moveTo_self]
  simp [toNextToken, nothing, same]

theorem toNextToken_of_begins (whole : s.rest = c :: after) (begins : Begins c) : toNextToken (fuel + 1) s = s := by
  have white := begins.white
  rw [isWhite, Bool.or_eq_false_iff] at white
  have same : s.moveTo (c :: after) = s := by rw [← whole, moveTo_self]
  simp [toNextToken, whole, white, begins.newline, begins.comment, begins.mark, same]

theorem toNextToken_space (whole : s.rest = ' ' :: c :: after) (begins : Begins c) :
    toNextToken (fuel + 1) s = s.moveTo (c :: after) := by
  have white := begins.white
  rw [isWhite, Bool.or_eq_false_iff] at white
  simp [toNextToken, whole, white, begins.newline, begins.comment]

theorem toNextToken_newline (whole : s.rest = '\n' :: after) (block : s.flows = []) :
    toNextToken (fuel + 2) s = toNextToken (fuel + 1) { s.moveTo after with keyAllowed := true } := by
  have flow : ∀ rest, (s.moveTo rest).inFlow = false := by simp [inFlow, moveTo, block]
  rw [toNextToken]
  simp [whole, isBreak, flow]

theorem expireKeys?_of_none (nothing : s.possible = none) (block : s.flows = []) : s.expireKeys? = some s := by
  obtain ⟨rest, position, tokens, indent, outer, keyAllowed, possible, flows⟩ := s
  cases nothing
  cases block
  rfl

theorem expireKeys?_of_fresh {k : PossibleKey} (possible : s.possible = some k) (block : s.flows = [])
    (line : s.position.line ≤ k.start.line) (near : s.position.index ≤ k.start.index + keyLimit) : s.expireKeys? = some s := by
  obtain ⟨rest, position, tokens, indent, outer, keyAllowed, _, flows⟩ := s
  cases possible
  cases block
  have fresh : ¬ (k.start.line < position.line ∨ k.start.index + keyLimit < position.index) := by
    simp only at line near
    omega
  simp [expireKeys?, expire, fresh]

theorem closeBlocks_of_le (deep : s.indent ≤ column) : s.closeBlocks column = s := by
  unfold closeBlocks
  split
  · rfl
  · obtain ⟨rest, position, tokens, indent, outer, keyAllowed, possible, flows⟩ := s
    cases outer with
    | nil => rfl
    | cons next outer => simp only [closeBlocks.close, if_neg (not_lt.mpr deep)]

theorem run?_step (here : toNextToken (s.rest.length + 1) s = s₁) (kept : s₁.expireKeys? = some s₁)
    (level : s₁.indent ≤ s₁.position.column) (whole : s₁.rest = c :: after) (step : s₁.next? c after = some s₂) :
    run? (fuel + 1) s = run? fuel s₂ := by
  rw [run?, here, kept, Option.bind_eq_bind, Option.bind_some]
  simp only [closeBlocks_of_le level, whole, step]
  rfl

theorem next?_plain {scalar : PlainScalar} (whole : s.rest = c :: after)
    (begins : BeginsPlain c ∨ c = '-' ∧ s.position.column ≠ 0 ∧ atGap after = false)
    (scanned : scanPlain? s.inFlow (s.indent + 1).toNat [] {} s.position.column s.rest = some scalar)
    (put : s.node? (.scalar true scalar.text) scalar.rest = some s₁) :
    s.next? c after = some (if scalar.broken then { s₁ with keyAllowed := true } else s₁) := by
  have last : (do
      let scalar ← scanPlain? s.inFlow (s.indent + 1).toNat [] {} s.position.column s.rest
      let s ← s.node? (.scalar true scalar.text) scalar.rest
      return if scalar.broken then { s with keyAllowed := true } else s) =
      some (if scalar.broken then { s₁ with keyAllowed := true } else s₁) := by
    rw [scanned]
    exact congrArg (Option.bind · _) put
  rw [← last]
  rcases begins with begins | ⟨rfl, inside, near⟩
  · have plain := begins.indicator
    have indicator := plain
    simp only [isIndicator, String.reduceToList, List.contains_cons, List.contains_nil, Bool.or_false, Bool.or_eq_false_iff] at indicator
    have mark : atDocumentMark s.rest = false := by
      have dash := beq_eq_false_iff_ne.mp indicator.1
      simp [atDocumentMark, whole, Text.after?, List.isPrefixOf?, Ne.symm dash, Ne.symm begins.dot]
    unfold next?
    simp [mark, indicator, begins.white, plain]
  · have column : (s.position.column == 0) = false := by simpa using inside
    have blank : after.head?.any isWhite = false := by
      cases after with
      | nil => rfl
      | cons d after =>
        have gap : (isWhite d || isBreak d) = false := near
        exact (Bool.or_eq_false_iff.mp gap).1
    unfold next?
    simp [column, near, blank]

theorem node?_of_allowed (allowed : s.keyAllowed = true) (nothing : s.possible = none) (token : Token) (rest : Text) :
    s.node? token rest = some { (s.moveTo rest).push token with
      keyAllowed := false, possible := some ⟨s.tokens.length, s.position, !s.inFlow && s.indent == s.position.column⟩ } := by
  simp [node?, saveKey?, dropKey?, allowed, nothing, moveTo, push, inFlow]

theorem node?_of_refused (refused : s.keyAllowed = false) (token : Token) (rest : Text) :
    s.node? token rest = some { (s.moveTo rest).push token with keyAllowed := false } := by
  simp [node?, saveKey?, refused]

/-- A line on which a key may stand. -/
def lineStart (rest : Text) (index line : Nat) (tokens : List Token) (indent : Int) (outer : List Int) : Scanner :=
  { rest, position := ⟨index, line, 0⟩, tokens, indent, outer }

/-- Behind the colon of a key, where its value stands on the same line. -/
def valueStart (rest : Text) (position : Position) (tokens : List Token) (outer : List Int) : Scanner :=
  { rest, position, tokens, indent := 0, outer, keyAllowed := false }

theorem after_of_unbroken {p : Position} (unbroken : ∀ c ∈ a, isBreak c = false) :
    p.after a = ⟨p.index + a.length, p.line, p.column + a.length⟩ := by
  induction a generalizing p with
  | nil => rfl
  | cons c a ih =>
    have step : p.next c = ⟨p.index + 1, p.line, p.column + 1⟩ := by
      rw [Position.next, unbroken c List.mem_cons_self]
      rfl
    rw [Position.after, List.foldl_cons, step]
    refine (ih fun d member => unbroken d (List.mem_cons_of_mem c member)).trans ?_
    simp only [List.length_cons, Position.mk.injEq, true_and]
    omega

variable {tokens : List Token} {indent : Int} {outer : List Int} {index line : Nat} {p : Position} {key : Text}

/-- A word at the start of a line may turn out to be a key. -/
theorem run?_key (some : key ≠ []) (named : ∀ c ∈ key, isWord c = true ∧ c ≠ '-') (level : indent ≤ 0) :
    run? (fuel + 1) (lineStart (key ++ ':' :: ' ' :: rest) index line tokens indent outer) =
      run? fuel { rest := ':' :: ' ' :: rest, position := ⟨index + key.length, line, key.length⟩, tokens := .scalar true key :: tokens,
                  indent, outer, keyAllowed := false, possible := Option.some ⟨tokens.length, ⟨index, line, 0⟩, indent == 0⟩ } := by
  have plain : ∀ c ∈ key, BeginsPlain c := fun c member => beginsPlain_of_word (named c member).1 (named c member).2
  have scanned : ∀ indent, scanPlain? false indent [] {} 0 (key ++ ':' :: ' ' :: rest) =
      Option.some ⟨key, ':' :: ' ' :: rest, false⟩ := by
    refine fun indent => scanPlain?_key fun c member => ⟨(plain c member).white, (plain c member).newline, ?_⟩
    rintro rfl
    exact absurd (named ':' member).1 (by decide)
  have put := node?_of_allowed (s := lineStart (key ++ ':' :: ' ' :: rest) index line tokens indent outer) rfl rfl (.scalar true key)
    (':' :: ' ' :: rest)
  rw [moveTo_append rfl, after_of_unbroken fun d member => (plain d member).newline] at put
  obtain ⟨c, others, rfl⟩ := List.exists_cons_of_ne_nil some
  have begins := plain c List.mem_cons_self
  have step := next?_plain (s := lineStart (c :: others ++ ':' :: ' ' :: rest) index line tokens indent outer) rfl (Or.inl begins)
    (scanned _) put
  refine (run?_step (toNextToken_of_begins rfl begins.toBegins) (expireKeys?_of_none rfl rfl) level rfl step).trans ?_
  simp [lineStart, push, inFlow]

/-- The colon makes a key of the word before it. The first one opens the mapping. -/
theorem run?_colon (near : key.length ≤ keyLimit) (level : indent ≤ 0) :
    run? (fuel + 1) { rest := ':' :: ' ' :: rest, position := ⟨index + key.length, line, key.length⟩,
                      tokens := .scalar true key :: tokens, indent, outer, keyAllowed := false,
                      possible := some ⟨tokens.length, ⟨index, line, 0⟩, indent == 0⟩ } =
      run? fuel (valueStart (' ' :: rest) ⟨index + key.length + 1, line, key.length + 1⟩
        (.value :: .scalar true key :: .key :: if indent < 0 then .blockMappingStart :: tokens else tokens)
        (if indent < 0 then indent :: outer else outer)) := by
  have begins : Begins ':' := ⟨by decide, by decide, by decide, by decide⟩
  refine run?_step (toNextToken_of_begins rfl begins) (expireKeys?_of_fresh rfl rfl (le_refl line) ?_) ?_ rfl ?_
  · simpa using near
  · simp only
    omega
  · have mark : atDocumentMark (':' :: ' ' :: rest) = false := by simp [atDocumentMark, Text.after?, List.isPrefixOf?]
    have gap : atGap (' ' :: rest) = true := rfl
    have first : (tokens.length + 1 + 1 - tokens.length) = 2 := by omega
    by_cases opens : indent < 0
    · simp [next?, mark, gap, value?, insert, openBlock, inFlow, opens, first, skip, moveTo, Text.upTo, push, valueStart, Position.after,
        Position.next, isBreak]
    · obtain rfl : indent = 0 := by omega
      simp [next?, mark, gap, value?, insert, openBlock, inFlow, skip, moveTo, Text.upTo, push, valueStart, Position.after,
        Position.next, isBreak]

theorem toNextToken_value (begins : Begins c) (p : Position) :
    toNextToken (fuel + 1) (valueStart (' ' :: c :: after) p tokens outer) = valueStart (c :: after) (p.next ' ') tokens outer := by
  rw [toNextToken_space rfl begins, moveTo_append (a := [' ']) rfl]
  rfl

theorem next?_quoted {text : Text} (whole : s.rest = '"' :: after)
    (scanned : scanQuoted? '"' 0 [] {} (s.position.column + 1) after = some (text, rest)) :
    s.next? '"' after = s.node? (.scalar false text) rest := by
  have mark : atDocumentMark s.rest = false := by simp [whole, atDocumentMark, Text.after?, List.isPrefixOf?]
  simp [next?, mark, scanned]

theorem run?_quoted (value rest : Text) (p : Position) : ∃ p', run? (fuel + 1)
      (valueStart (' ' :: '"' :: (Header.escape value ++ '"' :: rest)) p tokens outer) =
    run? fuel (valueStart rest p' (.scalar false (Header.onOneLine value) :: tokens) outer) := by
  have begins : Begins '"' := ⟨by decide, by decide, by decide, by decide⟩
  let s := valueStart ('"' :: (Header.escape value ++ '"' :: rest)) (p.next ' ') tokens outer
  have step := next?_quoted (s := s) rfl (Header.scanQuoted?_escape value rest (Nat.succ_pos _))
  have whole : s.rest = '"' :: (Header.escape value ++ ['"']) ++ rest := by simp [s, valueStart]
  rw [node?_of_refused rfl, moveTo_append whole] at step
  exact ⟨_, run?_step (toNextToken_value begins p) (expireKeys?_of_none rfl rfl) (Int.natCast_nonneg _) rfl step⟩

/-- The end of a line leads to the next one, where a key may stand again. -/
theorem run?_newline (rest : Text) (p : Position) : run? (fuel + 1) (valueStart ('\n' :: rest) p tokens outer) =
    run? (fuel + 1) (lineStart rest (p.index + 1) (p.line + 1) tokens 0 outer) := by
  have moved : { (valueStart ('\n' :: rest) p tokens outer).moveTo rest with keyAllowed := true } =
      lineStart rest (p.index + 1) (p.line + 1) tokens 0 outer := by
    rw [moveTo_append (a := ['\n']) rfl]
    rfl
  rw [run?, run?, valueStart, List.length_cons, toNextToken_newline rfl rfl]
  rw [← valueStart, moved]
  rfl

theorem run?_number (n : Int) (p : Position) : ∃ p', run? (fuel + 1) (valueStart (' ' :: (Text.ofInt n ++ ['\n'])) p tokens outer) =
    run? fuel { valueStart [] p' (.scalar true (Text.ofInt n) :: tokens) outer with keyAllowed := true } := by
  have digit : ∀ {c}, Text.isDigit c = true → BeginsPlain c := by
    intro c digit
    refine beginsPlain_of_word (by simp [isWord, Text.isAlphanumeric, digit]) ?_
    rintro rfl
    exact absurd digit (by decide)
  have solid : ∀ c ∈ Text.ofInt n, isWhite c = false ∧ isBreak c = false ∧ c ≠ ':' := by
    intro c member
    rcases Value.mem_ofInt member with rfl | here
    · decide
    · refine ⟨(digit here).white, (digit here).newline, ?_⟩
      rintro rfl
      exact absurd here (by decide)
  obtain ⟨c, after, shape, first⟩ := Value.ofInt_first n
  have begins : Begins c ∧ (BeginsPlain c ∨ c = '-' ∧ (p.next ' ').column ≠ 0 ∧ atGap (after ++ ['\n']) = false) := by
    rcases first with here | ⟨rfl, d, digits, rfl, here⟩
    · exact ⟨(digit here).toBegins, Or.inl (digit here)⟩
    · refine ⟨⟨by decide, by decide, by decide, by decide⟩, Or.inr ⟨rfl, Nat.succ_ne_zero p.column, ?_⟩⟩
      simp [atGap, (digit here).white, (digit here).newline]
  let s := valueStart (c :: (after ++ ['\n'])) (p.next ' ') tokens outer
  have whole : s.rest = Text.ofInt n ++ ['\n'] := by
    rw [shape]
    rfl
  have put := node?_of_refused (s := s) rfl (.scalar true (Text.ofInt n)) []
  rw [moveTo_append (a := Text.ofInt n ++ ['\n']) (by rw [whole, List.append_nil])] at put
  have step := next?_plain (s := s) rfl begins.2 (by rw [whole]; exact scanPlain?_last solid) put
  rw [shape] at step ⊢
  exact ⟨_, run?_step (toNextToken_value begins.1 p) (expireKeys?_of_none rfl rfl) (Int.natCast_nonneg _) rfl step⟩

theorem run?_end (s : Scanner) (nothing : s.rest = []) (possible : s.possible = none) (block : s.flows = []) (level : s.indent = 0)
    (outer : s.outer = [-1]) : run? (fuel + 1) s = some (.blockEnd :: s.tokens).reverse := by
  have deep : s.indent ≤ s.position.column := by rw [level]; exact Int.natCast_nonneg _
  rw [run?, toNextToken_nil nothing, expireKeys?_of_none possible block, Option.bind_eq_bind, Option.bind_some, closeBlocks_of_le deep]
  simp [nothing, finish?, closeBlocks, closeBlocks.close, inFlow, block, level, outer, dropKey?, possible]

/-- The tokens of a line in a block mapping. -/
def keyTokens (key : Text) (scalar : Token) : List Token := [.key, .scalar true key, .value, scalar]

/-- A field of a header is a key with a quoted value, whatever is scanned behind it. -/
theorem run?_field {text : Text} {scanned : Option (List Token)} (named : ∀ c ∈ key, isWord c = true ∧ c ≠ '-') (some : key ≠ [])
    (near : key.length ≤ keyLimit) (level : indent ≤ 0)
    (behind : ∀ index line, run? (fuel + 1) (lineStart rest index line
      ((keyTokens key (.scalar false (Header.onOneLine text))).reverse ++ if indent < 0 then .blockMappingStart :: tokens else tokens) 0
      (if indent < 0 then indent :: outer else outer)) = scanned) :
    run? (fuel + 4) (lineStart (Header.field key text ++ rest) index line tokens indent outer) = scanned := by
  have shape : Header.field key text ++ rest = key ++ ':' :: ' ' :: '"' :: (Header.escape text ++ '"' :: '\n' :: rest) := by
    simp [Header.field, Text.line]
  obtain ⟨p', quoted⟩ := run?_quoted text ('\n' :: rest) ⟨index + key.length + 1, line, key.length + 1⟩
  rw [shape, run?_key some named level, run?_colon near level, quoted, run?_newline]
  exact behind _ _

end Scanner
end NotebookPages.Yaml
