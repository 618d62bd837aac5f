import NotebookPages.Proofs.Markup.SecondPass

/-! The fences of a text are the fences of what a pass writes for it. Line by line the two texts are in the same fence,
and the lines that a fence holds or that delimit one are copied. -/

namespace NotebookPages

/-- The fence that holds the line after the first `number` lines of a text. -/
def Fence.holding (t : Text) (number : Nat) : Option Fence := after none ((Text.splitLines t).take number)

/-- The line after the first `number` lines of a text, if it lies in a fence or delimits one. -/
def Fence.fencedLine? (t : Text) (number : Nat) : Option Text :=
  (Text.splitLines t)[number]?.filter fun line => !isProse (holding t number) line

namespace Markup

variable {rules : Rules} {held : Option Fence} {source : Text} {l : Line} {sources : List Text} {ls : List Line}

theorem holding_sanitize (rules : Rules) (t : Text) (number : Nat) :
    Fence.holding (sanitize rules t) number = Fence.holding t number := by
  rw [Fence.holding, splitLines_sanitize, ← List.map_take]
  exact ((passed_run rules t).take number).inStep.after

theorem fencedLine?_sanitize (rules : Rules) (t : Text) (number : Nat) :
    Fence.fencedLine? (sanitize rules t) number = Fence.fencedLine? t number := by
  rw [Fence.fencedLine?, Fence.fencedLine?, holding_sanitize, splitLines_sanitize, List.getElem?_map]
  obtain ⟨here, beyond⟩ | ⟨l, source, here, same, settled⟩ := (passed_run rules t).line_cases number
  · rw [here, beyond, Option.map_none]
  · rw [here, same, Option.map_some, Option.filter_some, Option.filter_some, Fence.holding, settled.isProse]
    cases settled with
    | fenced => rfl
    | prose _ outside | replaced outside =>
      rw [outside]
      rfl

/-- A pass neither opens, closes, moves nor edits a fence: it writes as many lines as it reads, every line is in the fence
it was in, the lines in and around fences stay as they are, and the fence left open is opened by the same line. -/
theorem fences_sanitize (rules : Rules) (t : Text) :
    (Text.splitLines (sanitize rules t)).length = (Text.splitLines t).length ∧
      (∀ number, Fence.holding (sanitize rules t) number = Fence.holding t number) ∧
      (∀ number, Fence.fencedLine? (sanitize rules t) number = Fence.fencedLine? t number) ∧
      (Pass.run rules (sanitize rules t)).openFence = (Pass.run rules t).openFence := by
  refine ⟨?_, holding_sanitize rules t, fencedLine?_sanitize rules t, ?_⟩
  · rw [splitLines_sanitize, List.length_map, (passed_run rules t).length_eq]
  · rw [run_sanitize]

/-- A line that a removed tag would make a fence is guarded, and the lines of a fence are copied. -/
example : sanitize {} "<i>```\n~~~ \x7ba\x7d\n<b>\n~~~\n```" = ("\\```\n~~~ \x7ba\x7d\n<b>\n~~~\n```" : Text) := by
  decide +kernel

end Markup
end NotebookPages
