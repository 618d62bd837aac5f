import NotebookPages.Markup.Tag

/-!
Which tags of a document have a partner. A closing tag pairs with the nearest opening tag of the same
name that is still pending; the opening tags pending above that one are left without a partner.
-/

namespace NotebookPages.Markup

structure Pairing where
  /-- Numbers and names of the opening tags that still may find a partner, innermost first. -/
  pending : List (Nat × Text)
  kept : List Nat
  deriving DecidableEq, Repr

namespace Pairing

def start : Pairing := ⟨[], []⟩

def step (p : Pairing) (tag : Tag) (number : Nat) : Pairing :=
  match tag.kind with
  | .selfClosing => ⟨p.pending, number :: p.kept⟩
  | .opening => ⟨(number, tag.name) :: p.pending, p.kept⟩
  | .closing =>
    match p.pending.dropWhile (·.2 != tag.name) with
    | [] => p
    | (partner, _) :: outer => ⟨outer, number :: partner :: p.kept⟩

def ofTags (tags : List Tag) : Pairing := tags.zipIdx.foldl (fun p (tag, i) => p.step tag i) start

end Pairing

/-- For each tag of a document, whether it is kept: self-closing tags are, and the others if they
have a partner. -/
def keepFlags (tags : List Tag) : List Bool :=
  let kept := (Pairing.ofTags tags).kept
  tags.zipIdx.map fun (_, i) => kept.contains i

end NotebookPages.Markup
