import NotebookPages.Document.Fields
import NotebookPages.Proofs.Document.Generated
import NotebookPages.Proofs.Yaml.BlockLines

/-! The fields of a generated header are read back with the values they were written with, each on one line. A header that
holds one of the two characters that no YAML text may hold, and that are not control characters, cannot be read at all. -/

namespace NotebookPages

namespace Yaml

variable {c : Char} {t : Text}

theorem unifyBreaks_of_plain (plain : ∀ c ∈ t, c ≠ '\r' ∧ c ≠ '\u0085') : unifyBreaks t = t := by
  induction t with
  | nil => rfl
  | cons c t ih =>
    obtain ⟨feed, next⟩ := plain c List.mem_cons_self
    unfold unifyBreaks
    split
    next same => cases same
    next same => exact absurd (List.cons.inj same).1 feed
    next same => exact absurd (List.cons.inj same).1 next
    next same =>
      obtain ⟨rfl, rfl⟩ := List.cons.inj same
      rw [ih fun d member => plain d (List.mem_cons_of_mem c member)]

namespace Value

variable {read : Nat → Node → Option (Value × Nat)} {jumps : Nat}

/-- A key and its value are read. -/
def Reads (read : Nat → Node → Option (Value × Nat)) (jumps : Nat) (n : Node × Node) (v : Value × Value) : Prop :=
  read jumps n.1 = some (v.1, jumps) ∧ read jumps n.2 = some (v.2, jumps)

/-- Pairs that are read one by one, and none of whose keys repeats an earlier one, are read together. -/
theorem readPairs_eq {nodes : List (Node × Node)} {values : List (Value × Value)}
    (each : List.Forall₂ (Reads read jumps) nodes values)
    {done : List (Value × Value)} (fresh : (done ++ values).Pairwise fun a b => same b.1 a.1 = false) :
    readPairs read jumps done nodes = some (done ++ values, jumps) := by
  induction each generalizing done with
  | nil => simp [readPairs]
  | @cons n v nodes values first others ih =>
    obtain ⟨key, value⟩ := first
    rw [readPairs, key]
    dsimp only
    split
    next seen =>
      obtain ⟨a, member, repeated⟩ := List.any_eq_true.mp seen
      have apart := (List.pairwise_append.mp fresh).2.2 a member v List.mem_cons_self
      exact absurd (apart.symm.trans repeated) Bool.false_ne_true
    next =>
      rw [value]
      dsimp only
      rw [ih (by simpa using fresh), List.append_assoc]
      rfl

variable {d : Document} {fuel depth : Nat} {text : Text}

theorem ofNode?_mapping (pairs : List (Node × Node)) : ofNode? d (fuel + 1) (depth + 1) false jumps (.mapping none pairs) =
    (readPairs (ofNode? d fuel depth false) jumps [] pairs).map fun (ps, j) => (mapping ps, j) := by
  simp [ofNode?, ownTag?]

theorem ofNode?_quoted (text : Text) :
    ofNode? d (fuel + 1) depth false jumps (.scalar none false text) = some (string text, jumps) := by
  simp [ofNode?, ownTag?, ofScalar?]

theorem ofNode?_plain {v : Value} (read : ofPlain? text = some v) :
    ofNode? d (fuel + 1) depth false jumps (.scalar none true text) = some (v, jumps) := by
  simp [ofNode?, ownTag?, ofScalar?, read]

end Value
end Yaml

namespace Fields

variable {f : Fields} {key : Text}

theorem text?_string {s : Text} (found : f.get? key = some (.string s)) :
    f.text? key = if Text.trim s = [] then none else some (Text.trim s) := by
  rw [text?, found]
  by_cases empty : Text.trim s = []
  · simp [empty]
  · simp [Option.filter_some, empty]

theorem text?_integer {n : Int} (found : f.get? key = some (.integer n)) : f.text? key = some (Text.ofInt n) := by
  obtain ⟨c, rest, shape, -⟩ := Yaml.Value.ofInt_first n
  rw [text?, found]
  simp [Option.filter_some, shape]

theorem text?_none (absent : f.get? key = none) : f.text? key = none := by
  rw [text?, absent]
  rfl

end Fields

namespace Header

variable {h : Header} {c : Char}

/-- The two characters that are no control characters and that a YAML text may not hold. -/
def Unusable (c : Char) : Prop := c = '\ufffe' ∨ c = '\uffff'

instance (c : Char) : Decidable (Unusable c) := inferInstanceAs (Decidable (_ ∨ _))

theorem isAllowed_iff (solid : Text.isControl c = false) : Yaml.isAllowed c = true ↔ ¬ Unusable c := by
  have valid : c.toNat < 0xd800 ∨ 0xdfff < c.toNat ∧ c.toNat < 0x110000 := c.valid
  have unusable : Unusable c ↔ c.toNat = 0xfffe ∨ c.toNat = 0xffff := by
    simp [Unusable, Char.ext_iff, ← UInt32.toNat_inj]
  simp only [Text.isControl, Bool.or_eq_false_iff, Bool.and_eq_false_iff, decide_eq_false_iff_not] at solid
  rw [unusable]
  simp only [Yaml.isAllowed, Bool.or_eq_true, Bool.and_eq_true, decide_eq_true_eq, beq_iff_eq]
  omega

theorem mem_escape {value : Text} (inside : c ∈ escape value) :
    c = ' ' ∨ c = '\\' ∨ c ∈ value ∧ (Text.isBlank c || Text.isControl c) = false := by
  rcases Text.mem_joinWith inside with space | ⟨part, member, here⟩
  · exact Or.inl (List.mem_singleton.mp space)
  · obtain ⟨word, words, rfl⟩ := List.mem_map.mp member
    obtain ⟨d, there, written⟩ := List.mem_flatMap.mp here
    have plain := Text.not_sep_of_mem_wordsBy words d there
    have source : d ∈ value := (Text.mem_wordsBy_iff plain).mp ⟨word, words, there⟩
    unfold escapeChar at written
    split at written
    · rcases List.mem_cons.mp written with rfl | written
      · exact Or.inr (Or.inl rfl)
      · obtain rfl := List.mem_singleton.mp written
        exact Or.inr (Or.inr ⟨source, plain⟩)
    · obtain rfl := List.mem_singleton.mp written
      exact Or.inr (Or.inr ⟨source, plain⟩)

theorem mem_escape_of_solid {value : Text} (inside : c ∈ value) (plain : (Text.isBlank c || Text.isControl c) = false) :
    c ∈ escape value := by
  obtain ⟨word, words, here⟩ : ∃ word ∈ Text.wordsBy (fun c => Text.isBlank c || Text.isControl c) value, c ∈ word :=
    (Text.mem_wordsBy_iff plain).mpr inside
  refine Text.mem_joinWith_of_mem _ (List.mem_map_of_mem words) (List.mem_flatMap.mpr ⟨c, here, ?_⟩)
  unfold escapeChar
  split <;> simp

/-- What a YAML text may not hold is written as it is. -/
theorem allowed_escape_iff (value : Text) : (∀ c ∈ escape value, Yaml.isAllowed c = true) ↔ ∀ c ∈ value, ¬ Unusable c := by
  constructor
  · intro allowed c inside unusable
    have plain : (Text.isBlank c || Text.isControl c) = false := by
      rcases unusable with rfl | rfl <;> decide
    exact (isAllowed_iff (Bool.or_eq_false_iff.mp plain).2).mp (allowed c (mem_escape_of_solid inside plain)) unusable
  · intro usable c inside
    rcases mem_escape inside with rfl | rfl | ⟨source, plain⟩
    · decide
    · decide
    · exact (isAllowed_iff (Bool.or_eq_false_iff.mp plain).2).mpr (usable c source)

/-- What stands between the delimiters of a header. -/
def fieldText (h : Header) : Text :=
  field "title" h.title ++ (field "description" h.description ++ (positionLines h.position).flatten)

theorem headerText_block (h : Header) : Document.headerText (Text.line delimiter ++ h.fieldLines.flatten) = h.fieldText := by
  have opened : Text.cut ['\n'] (Text.line delimiter ++ h.fieldLines.flatten) = some (delimiter, h.fieldLines.flatten) :=
    Text.cut_singleton.mpr ⟨by simp [Text.line], by decide⟩
  have inner : h.fieldLines.flatten = h.fieldText ++ delimiter ++ ['\n'] := by simp [fieldLines, fieldText, Text.line]
  have trimmed : Text.trimEnd (h.fieldText ++ delimiter ++ ['\n']) = h.fieldText ++ delimiter := by
    have newline : Text.Blank ['\n'] := by simp [Text.Blank, Text.isBlank]
    rw [Text.trimEnd_of_blank newline, Text.trimEnd, Text.dropEndWhile, List.reverse_append]
    rw [show delimiter.reverse ++ h.fieldText.reverse = '-' :: ('-' :: '-' :: h.fieldText.reverse) from rfl,
      List.dropWhile_cons_of_neg (by decide)]
    simp [delimiter]
  have closed : Text.before? delimiter (h.fieldText ++ delimiter) = some h.fieldText := by
    rw [Text.before?, Text.isPrefixOf?_eq_some_iff.mpr (List.reverse_append ..), Option.map_some, List.reverse_reverse]
  unfold Document.headerText
  rw [show ("\n" : Text) = ['\n'] from rfl, opened]
  simp only [inner, trimmed, closed, Option.getD_some]

/-- The keys of a header with their scalars, in order. -/
def entries (h : Header) : List (Text × Bool × Text) :=
  ("title", false, onOneLine h.title) :: ("description", false, onOneLine h.description) ::
    (h.position.map fun n => (("sidebar_position" : Text), true, Text.ofInt n)).toList

def tokens (h : Header) : List Yaml.Token :=
  .blockMappingStart :: h.entries.flatMap (fun (key, plain, text) => Yaml.Scanner.keyTokens key (.scalar plain text)) ++ [.blockEnd]

open Yaml Yaml.Scanner in
theorem run?_fieldText (h : Header) : run? (h.fieldText.length + 1) { rest := h.fieldText } = some h.tokens := by
  obtain ⟨fuel, enough⟩ : ∃ fuel, h.fieldText.length + 1 = fuel + 10 :=
    ⟨h.fieldText.length - 9, by simp [fieldText, field, Text.line]; omega⟩
  have start : ({ rest := h.fieldText } : Scanner) = lineStart h.fieldText 0 0 [] (-1) [] := rfl
  rw [enough, start, fieldText]
  -- The title opens the mapping; each line after it starts at the column of the mapping.
  refine run?_field (Text.forall_mem_of_all (by decide)) (by decide) (by decide) (by decide) fun index line => ?_
  refine run?_field (Text.forall_mem_of_all (by decide)) (by decide) (by decide) (by decide) fun index line => ?_
  cases position : h.position with
  | none =>
    refine (run?_end _ rfl rfl rfl rfl rfl).trans ?_
    simp only [tokens, entries, position]
    rfl
  | some n =>
    have shape : (positionLines (some n)).flatten = "sidebar_position".toList ++ ':' :: ' ' :: (Text.ofInt n ++ ['\n']) := by
      simp [positionLines, Text.line]
    obtain ⟨p', number⟩ := run?_number n ⟨index + "sidebar_position".toList.length + 1, line, "sidebar_position".toList.length + 1⟩
    rw [shape, run?_key (by decide) (Text.forall_mem_of_all (by decide)) (by decide), run?_colon (by decide) (by decide), number]
    refine (run?_end _ rfl rfl rfl rfl rfl).trans ?_
    simp only [tokens, entries, position]
    rfl

/-- A line feed, or a printable ASCII character. -/
def Printable (c : Char) : Prop := c = '\n' ∨ 32 ≤ c.toNat ∧ c.toNat ≤ 126

instance (c : Char) : Decidable (Printable c) := inferInstanceAs (Decidable (_ ∨ _))

theorem mem_field {key value : Text} (named : ∀ c ∈ key, Printable c) (inside : c ∈ field key value) :
    Printable c ∨ c ∈ escape value := by
  have marks : ∀ c ∈ (": \"" : Text), Printable c := Text.forall_mem_of_all (by decide)
  have quote : ∀ c ∈ ("\"" : Text), Printable c := Text.forall_mem_of_all (by decide)
  simp only [field, Text.line, List.mem_append] at inside
  rcases inside with (((inside | inside) | inside) | inside) | inside
  · exact Or.inl (named c inside)
  · exact Or.inl (marks c inside)
  · exact Or.inr inside
  · exact Or.inl (quote c inside)
  · exact Or.inl (Or.inl (List.mem_singleton.mp inside))

theorem mem_fieldText (inside : c ∈ h.fieldText) : Printable c ∨ c ∈ escape h.title ∨ c ∈ escape h.description := by
  rcases List.mem_append.mp inside with inside | inside
  · exact (mem_field (Text.forall_mem_of_all (by decide)) inside).imp_right Or.inl
  · rcases List.mem_append.mp inside with inside | inside
    · exact (mem_field (Text.forall_mem_of_all (by decide)) inside).imp_right Or.inr
    · cases position : h.position with
      | none =>
        rw [position] at inside
        cases inside
      | some n =>
        have key : ∀ c ∈ ("sidebar_position: " : Text), Printable c := Text.forall_mem_of_all (by decide)
        rw [position, positionLines, List.flatten_singleton, Text.line, List.mem_append, List.mem_append] at inside
        rcases inside with (inside | inside) | inside
        · exact Or.inl (key c inside)
        · rcases Yaml.Value.mem_ofInt inside with rfl | digit
          · exact Or.inl (by decide)
          · have bounds : 48 ≤ c.toNat ∧ c.toNat ≤ 57 := by
              simpa [Text.isDigit, Char.le_def, UInt32.le_iff_toNat_le] using digit
            exact Or.inl (Or.inr (by omega))
        · exact Or.inl (Or.inl (List.mem_singleton.mp inside))

theorem Printable.allowed (printable : Printable c) : Yaml.isAllowed c = true := by
  rcases printable with rfl | bounds
  · decide
  · simp only [Yaml.isAllowed, Bool.or_eq_true, Bool.and_eq_true, decide_eq_true_eq, beq_iff_eq]
    omega

theorem allowed_fieldText_iff (h : Header) :
    h.fieldText.all Yaml.isAllowed = true ↔ ∀ c ∈ h.title ++ h.description, ¬ Unusable c := by
  rw [List.all_eq_true, List.forall_mem_append, ← allowed_escape_iff, ← allowed_escape_iff]
  constructor
  · intro allowed
    exact ⟨fun c inside => allowed c (by simp [fieldText, field, Text.line, inside]),
      fun c inside => allowed c (by simp [fieldText, field, Text.line, inside])⟩
  · rintro ⟨title, description⟩ c inside
    rcases mem_fieldText inside with printable | inside | inside
    · exact printable.allowed
    · exact title c inside
    · exact description c inside

theorem ofText?_fieldText (usable : ∀ c ∈ h.title ++ h.description, ¬ Unusable c) :
    Yaml.Token.ofText? h.fieldText = some h.tokens := by
  have solid : ∀ c ∈ h.fieldText, (c ≠ '\r' ∧ c ≠ '\u0085') := by
    have escaped : ∀ {value}, ∀ c ∈ escape value, c ≠ '\r' ∧ c ≠ '\u0085' := by
      intro value c inside
      rcases mem_escape inside with rfl | rfl | ⟨-, plain⟩
      · decide
      · decide
      · constructor <;> (rintro rfl; exact absurd plain (by decide))
    intro c inside
    rcases mem_fieldText inside with printable | inside | inside
    · constructor <;> (rintro rfl; exact absurd printable (by decide))
    · exact escaped c inside
    · exact escaped c inside
  rw [Yaml.Token.ofText?, if_pos ((allowed_fieldText_iff h).mpr usable), Yaml.unifyBreaks_of_plain solid]
  exact run?_fieldText h

def nodes (h : Header) : List (Yaml.Node × Yaml.Node) :=
  h.entries.map fun (key, plain, text) => (.scalar none true key, .scalar none plain text)

theorem read?_document (usable : ∀ c ∈ h.title ++ h.description, ¬ Unusable c) :
    Yaml.Document.read? h.fieldText = some ⟨some (.mapping none h.nodes), [], 2 + 2 * h.entries.length⟩ := by
  rw [Yaml.Document.read?, ofText?_fieldText usable, Option.bind_some]
  cases position : h.position with
  | none =>
    simp only [tokens, nodes, entries, position]
    rfl
  | some n =>
    simp only [tokens, nodes, entries, position]
    rfl

/-- The keys of a header with their values, in order. -/
def pairs (h : Header) : List (Yaml.Value × Yaml.Value) :=
  (.string "title", .string (onOneLine h.title)) :: (.string "description", .string (onOneLine h.description)) ::
    (h.position.map fun n => (.string "sidebar_position", .integer n)).toList

open Yaml in
theorem read?_fieldText (fits : ∀ n ∈ h.position, Value.fitsInteger n = true)
    (usable : ∀ c ∈ h.title ++ h.description, ¬ Unusable c) : Value.read? h.fieldText = some (.mapping h.pairs) := by
  have each : ∀ d fuel depth jumps, List.Forall₂ (Value.Reads (Value.ofNode? d (fuel + 1) depth false) jumps) h.nodes h.pairs := by
    intro d fuel depth jumps
    rw [nodes, entries, pairs]
    refine .cons ⟨Value.ofNode?_plain rfl, Value.ofNode?_quoted _⟩ (.cons ⟨Value.ofNode?_plain rfl, Value.ofNode?_quoted _⟩ ?_)
    cases position : h.position with
    | none => exact .nil
    | some n => exact .cons ⟨Value.ofNode?_plain rfl, Value.ofNode?_plain (Value.ofPlain?_ofInt (fits n position))⟩ .nil
  have fresh : ([] ++ h.pairs).Pairwise fun (a b : Value × Value) => Value.same b.1 a.1 = false := by
    cases position : h.position <;> simp [pairs, position, Value.same]
  rw [Value.read?, read?_document usable, Option.bind_some, Value.ofDocument?]
  simp only
  rw [show 4 * Value.depthLimit + 8 = 518 + 1 + 1 from rfl, show Value.depthLimit = 127 + 1 from rfl, Value.ofNode?_mapping,
    Value.readPairs_eq (each _ _ _ _) fresh]
  rfl

/-- A header is read as a mapping, unless one of its characters keeps it from being read. -/
theorem fields_block (fits : ∀ n ∈ h.position, Yaml.Value.fitsInteger n = true) :
    Document.fields (Text.line delimiter ++ h.fieldLines.flatten) =
      if h.fieldText.all Yaml.isAllowed then ⟨h.pairs⟩ else ⟨[]⟩ := by
  rw [Document.fields, headerText_block]
  by_cases allowed : h.fieldText.all Yaml.isAllowed = true
  · rw [if_pos allowed, read?_fieldText fits ((allowed_fieldText_iff h).mp allowed)]
  · have unread : Yaml.Value.read? h.fieldText = none := by
      rw [Yaml.Value.read?, Yaml.Document.read?, Yaml.Token.ofText?, if_neg allowed]
      rfl
    rw [if_neg allowed, unread]

/-- What a value comes back as: the value on one line, if anything is left of it. -/
def readBack? (value : Text) : Option Text := if onOneLine value = [] then none else some (onOneLine value)

theorem text?_readBack {f : Fields} {key value : Text} (found : f.get? key = some (.string (onOneLine value))) :
    f.text? key = readBack? value := by
  have trimmed : Text.trim (onOneLine value) = onOneLine value := Text.trim_trim _
  rw [Fields.text?_string found, trimmed, readBack?]

theorem text?_position (h : Header) : Fields.text? ⟨h.pairs⟩ "sidebar_position" = h.position.map Text.ofInt := by
  cases position : h.position with
  | none =>
    refine Fields.text?_none ?_
    simp only [Fields.get?, pairs, position]
    rfl
  | some n =>
    refine Fields.text?_integer ?_
    simp only [Fields.get?, pairs, position]
    rfl

/-- A value with an unusable character is not empty on one line. -/
theorem readBack?_ne_none {value : Text} (inside : c ∈ value) (unusable : Unusable c) : readBack? value ≠ none := by
  have plain : (Text.isBlank c || Text.isControl c) = false := by
    rcases unusable with rfl | rfl <;> decide
  obtain ⟨word, words, here⟩ : ∃ word ∈ Text.wordsBy (fun c => Text.isBlank c || Text.isControl c) value, c ∈ word :=
    (Text.mem_wordsBy_iff plain).mpr inside
  have written : c ∈ onOneLine value := by
    rw [onOneLine_eq]
    exact Text.mem_joinWith_of_mem _ words here
  rw [readBack?, if_neg (List.ne_nil_of_mem written)]
  exact Option.some_ne_none _

/-- The fields of a generated header, split off from any body, come back on one line each, if and only if no character of the
title and the description is unusable. -/
theorem text?_generated_iff (h : Header) (bounded : ∀ n ∈ h.position, -2 ^ 63 ≤ n ∧ n < 2 ^ 63) (body : Text) :
    (∃ header rest, Document.split (h.render ++ body) = (some header, rest) ∧
      (Document.fields header).text? "title" = readBack? h.title ∧
      (Document.fields header).text? "description" = readBack? h.description ∧
      (Document.fields header).text? "sidebar_position" = h.position.map Text.ofInt) ↔
    ∀ c ∈ h.title ++ h.description, ¬ Unusable c := by
  have fits : ∀ n ∈ h.position, Yaml.Value.fitsInteger n = true := by
    intro n position
    have bounds := bounded n position
    simp only [Yaml.Value.fitsInteger, Bool.and_eq_true, decide_eq_true_eq]
    norm_num at bounds ⊢
    omega
  constructor
  · rintro ⟨header, rest, found, title, description, -⟩
    obtain ⟨rfl, -⟩ : Text.line delimiter ++ h.fieldLines.flatten = header ∧ '\n' :: body = rest := by
      simpa [split_render_append] using found
    rw [← allowed_fieldText_iff]
    by_contra refused
    rw [fields_block fits, if_neg refused] at title description
    refine refused ((allowed_fieldText_iff h).mpr fun c inside unusable => ?_)
    rcases List.mem_append.mp inside with inside | inside
    · exact readBack?_ne_none inside unusable title.symm
    · exact readBack?_ne_none inside unusable description.symm
  · intro usable
    refine ⟨_, _, split_render_append h body, ?_⟩
    rw [fields_block fits, if_pos ((allowed_fieldText_iff h).mpr usable)]
    exact ⟨text?_readBack rfl, text?_readBack rfl, text?_position h⟩

theorem text?_generated_quotes :
    (∀ n ∈ some (-7 : Int), -2 ^ 63 ≤ n ∧ n < 2 ^ 63) ∧ ∃ header rest,
      Document.split (Header.render ⟨" \"a\"\n\n\\b:\t# ", "\u0000", some (-7)⟩ ++ "---\n") = (some header, rest) ∧
      (Document.fields header).text? "title" = some "\"a\" \\b: #" ∧
      (Document.fields header).text? "description" = none ∧
      (Document.fields header).text? "sidebar_position" = some "-7" :=
  ⟨by decide, (text?_generated_iff ⟨" \"a\"\n\n\\b:\t# ", "\u0000", some (-7)⟩ (by decide) "---\n").mpr
    (Text.forall_mem_of_all (by decide))⟩

theorem text?_generated_lost :
    (Document.split (Header.render ⟨"\uffff", "d", none⟩)).1.map (fun header => (Document.fields header).text? "title") = some none ∧
    readBack? "\uffff" = some "\uffff" := by
  decide

end Header
end NotebookPages
