import NotebookPages.Proofs.Markup.Reading
import NotebookPages.Proofs.Markup.TagWriting

/-! What is written for a tag and for a comment is read back, and nothing that stands behind it is taken for a part of it. -/

namespace NotebookPages

namespace Tag

/-- A tag that was read, with whatever blanks, quotes and slashes, is written so that it is read again as a tag of the same name and
kind, with the attributes that the dialect takes, and this one is written in the same way. -/
theorem read?_rendered {source rest : Text} {t : Tag} (found : read? source = some (t, rest)) (d : Dialect) (s : Text) :
    ∃ t', read? (t.render d ++ s) = some (t', s) ∧ t'.name = t.name ∧ t'.kind = t.kind ∧
      t'.attributes = t.attributes.filter (keeps d) ∧ t'.render d = t.render d := by
  obtain ⟨spelling, -, spelled⟩ := read?_sound found
  exact ⟨t.normal d, read?_render spelled.wellFormed d s, rfl, rfl, rfl, render_normal d t⟩

/-- A line break with an end mark and a quote inside a value and with an attribute that the dialect does not take, before text that
looks like the end of a tag. -/
theorem read?_rendered_break :
    let source : Text := "<BR  class = 'a>\"b' STYLE=x hidden/>'>"
    let t : Tag := ⟨"BR", .selfClosing, [⟨"class", some ('\'', "a>\"b")⟩, ⟨"STYLE", some ('"', "x")⟩, ⟨"hidden", none⟩], true⟩
    let written : Text := "<BR class='a>\"b' hidden />"
    read? source = some (t, ['\'', '>']) ∧ t.render .mdx = written ∧
      ∃ t', read? (written ++ source) = some (t', source) ∧ t'.kind = .selfClosing ∧ t'.render .mdx = written := by
  intro source t written
  have found : read? source = some (t, ['\'', '>']) := by decide
  have shape : t.render .mdx = written := by decide
  obtain ⟨t', again, -, kind, -, same⟩ := read?_rendered found .mdx source
  rw [shape] at again same
  exact ⟨found, shape, t', again, kind, same⟩

end Tag

namespace Markup

variable {a s : Text} {q : Bool} {b : Option Char}

theorem IsComment.scan (comment : IsComment a) :
    scanFrom .mdx 0 q b (a ++ s) = .plain a :: scanFrom .mdx 0 false (some '\x7d') s := by
  rw [scanFrom_token (.comment rfl comment)]
  obtain ⟨⟨x, rfl⟩, -⟩ := comment
  rw [← List.cons_append, List.getLast?_concat, List.cons_append, List.all_cons, show isLead '\x7b' = false by decide, Bool.false_and,
    Bool.and_false, Option.some_or]

/-- Whatever a comment says and whatever follows it, the comment ends where it was written to end, and a line reads it as one piece. -/
theorem afterComment?_comment (x s : Text) : afterComment? (Dialect.mdx.comment x ++ s) = some s ∧
    ∀ quoting before, scanFrom .mdx 0 quoting before (Dialect.mdx.comment x ++ s) =
      .plain (Dialect.mdx.comment x) :: scanFrom .mdx 0 false (some '\x7d') s :=
  ⟨(isComment_comment x).2 s, fun _ _ => (isComment_comment x).scan⟩

/-- Marks that would end a comment, before text that could end it as well. -/
example : afterComment? (Dialect.mdx.comment "*/\x7d **//\x7d *" ++ "/\x7d */\x7d") = some "/\x7d */\x7d".toList := by decide

end Markup

end NotebookPages
