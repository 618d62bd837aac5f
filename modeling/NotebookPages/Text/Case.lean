import NotebookPages.Text.Basic
import NotebookPages.Text.CaseTable

/-!
Upper and lower case over all of Unicode. A character may map to several, and a capital sigma at the
end of a word has a lower-case form of its own.
-/

namespace NotebookPages.Text

open CaseTable

private def shift? (rows : List (Nat × Nat × Nat × Int)) (n : Nat) : Option Int :=
  (rows.find? fun (first, last, stride, _) => first ≤ n && n ≤ last && (n - first) % stride == 0).map
    fun (_, _, _, shift) => shift

private def mapCase (rows : List (Nat × Nat × Nat × Int)) (sequences : List (Nat × List Nat))
    (c : Char) : Text :=
  let n := c.toNat
  match sequences.lookup n with
  | some codes => codes.map Char.ofNat
  | none =>
    match shift? rows n with
    | some shift => [Char.ofNat (n + shift).toNat]
    | none => [c]

def upperChar (c : Char) : Text :=
  if c.toNat < 128 then [if 'a' ≤ c && c ≤ 'z' then Char.ofNat (c.toNat - 32) else c]
  else mapCase upperRows upperSequences c

def lowerChar (c : Char) : Text :=
  if c.toNat < 128 then [asciiLower c] else mapCase lowerRows lowerSequences c

def upper (t : Text) : Text := t.flatMap upperChar

private def inRanges (ranges : List (Nat × Nat)) (c : Char) : Bool :=
  ranges.any fun (first, last) => first ≤ c.toNat && c.toNat ≤ last

/-- The first character that a case context does not look through has case. -/
private def meetsCased (t : Text) : Bool :=
  (t.find? (!inRanges ignorableRanges ·)).any (inRanges casedRanges)

/-- Lower case of the rest of a word, given what precedes it in reverse. -/
def lowerAfter (before : Text) : Text → Text
  | [] => []
  | c :: rest =>
    (if c == 'Σ' then
      [if meetsCased before && !meetsCased rest then 'ς' else 'σ']
    else lowerChar c) ++ lowerAfter (c :: before) rest

def lower (t : Text) : Text := lowerAfter [] t

end NotebookPages.Text
