import NotebookPages.Text.Basic
import NotebookPages.Text.QuoteTable

/-!
A text in double quotes for a status line, with escapes for all that a terminal would not show.
-/

namespace NotebookPages.Text

def hex (n : Nat) : Text := Nat.toDigits 16 n

private def quotedChar (c : Char) : Text :=
  match c with
  | '\x00' => "\\0"
  | '\t' => "\\t"
  | '\n' => "\\n"
  | '\r' => "\\r"
  | '"' => "\\\""
  | '\\' => "\\\\"
  | c =>
    if escapedRanges.any fun (first, last) => first ≤ c.toNat && c.toNat ≤ last then
      "\\u\x7b" ++ hex c.toNat ++ "\x7d"
    else [c]

def quoted (t : Text) : Text := "\"" ++ t.flatMap quotedChar ++ "\""

end NotebookPages.Text
