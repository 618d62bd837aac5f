import NotebookPages.Proofs.Markup.Tokens

/-! A line as the sequence of its tokens. A reading covers a text up to what follows it, so readings of
neighbouring texts join, and the scanner finds the one reading of a line. -/

namespace NotebookPages.Markup

def isLead (c : Char) : Bool := Text.isBlank c || c == '>'

/-- The text is read as these pieces where `after` follows it. -/
inductive Reading (d : Dialect) (after : Text) : Bool → Option Char → Text → List Piece → Prop where
  | done {quoting : Bool} {before : Option Char} : Reading d after quoting before [] []
  | more {quoting : Bool} {before : Option Char} {a r : Text} {p : Piece} {ps : List Piece}
      (first : Token d quoting before a (r ++ after) p)
      (rest : Reading d after (quoting && a.all isLead) (a.getLast?.or before) r ps) :
      Reading d after quoting before (a ++ r) (p :: ps)

variable {d : Dialect} {q : Bool} {b : Option Char} {a r s after : Text} {p : Piece} {ps qs : List Piece}

theorem Token.ne_nil (token : Token d q b a r p) : a ≠ [] := by
  obtain ⟨c, x, rfl, -⟩ := token.read
  exact List.cons_ne_nil c x

theorem getLast?_append_or (a r : Text) (b : Option Char) : (a ++ r).getLast?.or b = r.getLast?.or (a.getLast?.or b) := by
  rw [List.getLast?_append, Option.or_assoc]

theorem scanFrom_append (x r : Text) :
    scanFrom d x.length q b (x ++ r) = scanFrom d 0 (q && x.all isLead) (x.getLast?.or b) r := by
  induction x generalizing q b with
  | nil => simp
  | cons c x ih =>
    have last : (c :: x).getLast?.or b = x.getLast?.or (some c) := getLast?_append_or [c] x b
    rw [last, List.all_cons, ← Bool.and_assoc]
    exact ih

theorem scanFrom_token (token : Token d q b a r p) :
    scanFrom d 0 q b (a ++ r) = p :: scanFrom d 0 (q && a.all isLead) (a.getLast?.or b) r := by
  obtain ⟨c, x, rfl, read⟩ := token.read
  have last : (c :: x).getLast?.or b = x.getLast?.or (some c) := getLast?_append_or [c] x b
  rw [last, List.all_cons, ← Bool.and_assoc, ← scanFrom_append]
  simp only [List.cons_append, scanFrom, read]
  rfl

theorem Reading.scan_append (reading : Reading d after q b s ps) :
    scanFrom d 0 q b (s ++ after) = ps ++ scanFrom d 0 (q && s.all isLead) (s.getLast?.or b) after := by
  induction reading with
  | done => simp
  | more first rest ih =>
    rw [List.append_assoc, scanFrom_token first, ih, getLast?_append_or, List.all_append, Bool.and_assoc, List.cons_append]

theorem Reading.scan_eq (reading : Reading d [] q b s ps) : scanFrom d 0 q b s = ps := by
  simpa [scanFrom] using reading.scan_append

theorem reading_scan (d : Dialect) (q : Bool) (b : Option Char) (s : Text) : Reading d [] q b s (scanFrom d 0 q b s) := by
  induction length : s.length using Nat.strongRecOn generalizing q b s with
  | ind n ih =>
    cases s with
    | nil => exact .done
    | cons c s =>
      cases read : nextPiece d q b c s with
      | mk p n =>
        obtain ⟨x, r, rfl, rfl, token⟩ := token_of_nextPiece read
        have shorter : r.length < n := by
          rw [← length, List.length_cons, List.length_append]
          omega
        have rest := ih _ shorter (q && (c :: x).all isLead) ((c :: x).getLast?.or b) r rfl
        rw [← List.cons_append, scanFrom_token token]
        exact .more (by simpa using token) rest

theorem Reading.unique (one : Reading d [] q b s ps) (other : Reading d [] q b s qs) : ps = qs :=
  one.scan_eq.symm.trans other.scan_eq

theorem Reading.append (front : Reading d (r ++ after) q b s ps)
    (back : Reading d after (q && s.all isLead) (s.getLast?.or b) r qs) : Reading d after q b (s ++ r) (ps ++ qs) := by
  induction front with
  | done => simpa using back
  | more first rest ih =>
    rw [List.append_assoc, List.cons_append]
    refine .more (by simpa using first) (ih ?_)
    rw [List.all_append, getLast?_append_or, ← Bool.and_assoc] at back
    exact back

theorem Reading.single (token : Token d q b a after p) : Reading d after q b a [p] := by
  have reading : Reading d after q b (a ++ []) [p] := .more (by simpa using token) .done
  simpa using reading

theorem ordinary_of_all {x : Text} (all : x.all (!isSpecial d ·) = true) : ∀ c ∈ x, isSpecial d c = false := by
  simpa using all

theorem Reading.ordinary {x : Text} (plain : ∀ c ∈ x, isSpecial d c = false) :
    Reading d after q b x (x.map fun c => .plain [c]) := by
  induction x generalizing q b with
  | nil => exact .done
  | cons c x ih =>
    exact .more (a := [c]) (.plain (plain c (by simp))) (ih fun e inside => plain e (List.mem_cons_of_mem _ inside))

theorem Reading.sources (reading : Reading d after q b s ps) : ps.flatMap Piece.source = s := by
  induction reading with
  | done => rfl
  | more first _ ih => rw [List.flatMap_cons, first.source_eq, ih]

end NotebookPages.Markup
