import Mathlib.Data.List.Nodup
import NotebookPages.Command.Repair
import NotebookPages.Proofs.Storage.Rewriting

/-! Backups of repaired pages. Pages are repaired one after another, so the backup of a page is what the page was before the run,
unless a repaired page is itself the backup of one that was repaired before it, or two paths lead to one page. -/

namespace NotebookPages.Command

open FileTree (backupOf)

variable {t u v : FileTree} {p : Path} {l m d : Location} {n : Text} {old new bytes : Bytes} {log front back : List (Path × Location)}
  {α : Type} {edit? : Text → Option (Text × α)} {c : Change α}

/-- One page is changed, and what it was is kept beside it. -/
structure Rewritten (t u : FileTree) (p : Path) (l : Location) (old new : Bytes) : Prop where
  found : t.locate p = .ok l
  file : t.get? l = some (.file old)
  named : ∃ d n, l = d ++ [n]
  free : t.get? (backupOf l) ≠ some .directory
  result : u = (t.put (backupOf l) (.file old)).put l (.file new)
  backup : u.locate (Path.backup p) = .ok (backupOf l)
  edited : old ≠ new

namespace Rewritten

theorem entry (rewritten : Rewritten t u p l old new) (m : Location) :
    u.get? m = if m = l then some (.file new) else if m = backupOf l then some (.file old) else t.get? m := by
  obtain ⟨d, n, rfl⟩ := rewritten.named
  rw [rewritten.result, FileTree.get?_put _ _ _ _ (by simp), FileTree.get?_put _ _ _ _ (by simp [FileTree.backupOf_append])]

theorem copied (rewritten : Rewritten t u p l old new) : u.get? (backupOf l) = some (.file old) := by
  obtain ⟨d, n, rfl⟩ := rewritten.named
  rw [rewritten.entry, if_neg, if_pos rfl]
  rw [FileTree.backupOf_append]
  exact (FileTree.backup_apart d n).symm

theorem directory (rewritten : Rewritten t u p l old new) : u.get? m = some .directory ↔ t.get? m = some .directory := by
  rw [rewritten.entry]
  split
  next same => simp [same, rewritten.file]
  next =>
    split
    next same => simp [same, rewritten.free]
    next => rfl

theorem current (rewritten : Rewritten t u p l old new) : u.current = t.current := by
  rw [rewritten.result]
  rfl

theorem grows (rewritten : Rewritten t u p l old new) : t.Grows u where
  current := rewritten.current
  directory there := rewritten.directory.mpr there
  file {m content} there := by
    rw [rewritten.entry]
    split
    · exact ⟨_, rfl⟩
    · split
      · exact ⟨_, rfl⟩
      · exact ⟨_, there⟩

end Rewritten

theorem decode?_of_readText {text : Text} (read : t.readText p = .ok text) :
    ∃ old, t.readBytes p = .ok old ∧ Text.decode? old = some text := by
  obtain ⟨old, bytes, read⟩ := Except.bind_eq_ok_iff.mp read
  split at read
  next text' decoded =>
    obtain rfl := Except.ok.inj read
    exact ⟨old, bytes, decoded⟩
  next => cases read

/-- A page is changed, with what it was beside it, or all is as it was. -/
theorem editPage_cases (edits : ∀ text edited what, edit? text = some (edited, what) → edited ≠ text)
    (result : editPage false true edit? t p = (u, c)) :
    (∃ what, c = .changed what) ∧ (∃ l old new, Rewritten t u p l old new) ∨ (∀ what, c ≠ .changed what) ∧ u = t := by
  unfold editPage at result
  split at result
  next =>
    obtain ⟨rfl, rfl⟩ := Prod.mk.inj result
    exact Or.inr ⟨by simp, rfl⟩
  next text read =>
    split at result
    next =>
      obtain ⟨rfl, rfl⟩ := Prod.mk.inj result
      exact Or.inr ⟨by simp, rfl⟩
    next edited what found =>
      obtain ⟨old, bytes, decoded⟩ := decode?_of_readText read
      obtain ⟨l, place, file⟩ := FileTree.readBytes_eq_ok bytes
      rw [if_neg Bool.false_ne_true] at result
      split at result
      next published =>
        obtain ⟨rfl, rfl⟩ := Prod.mk.inj result
        obtain ⟨named, free, after, backup⟩ := FileTree.publish_over place file published
        refine Or.inl ⟨⟨what, rfl⟩, l, old, Text.encode edited, place, file, named, free, after, backup, ?_⟩
        rintro rfl
        rw [Text.decode?_encode] at decoded
        exact edits text edited what found (Option.some.inj decoded)
      next failed =>
        obtain ⟨rfl, rfl⟩ := Prod.mk.inj result
        exact Or.inr ⟨by simp, (FileTree.publish_error failed).trans (FileTree.prepare_of_file place file)⟩

/-- Pages are changed one after another. -/
inductive Repaired : FileTree → List (Path × Location) → FileTree → Prop where
  | done (t : FileTree) : Repaired t [] t
  | step {t u v : FileTree} {p : Path} {l : Location} {old new : Bytes} {log : List (Path × Location)}
      (first : Rewritten t u p l old new) (more : Repaired u log v) : Repaired t ((p, l) :: log) v

namespace Repaired

theorem grows (run : Repaired t log u) : t.Grows u := by
  induction run with
  | done t => exact .refl t
  | step first more ih => exact first.grows.trans ih

theorem current (run : Repaired t log u) : u.current = t.current := run.grows.current

theorem directory (run : Repaired t log u) : u.get? m = some .directory ↔ t.get? m = some .directory := by
  induction run with
  | done t => rfl
  | step first more ih => exact ih.trans first.directory

/-- What is no changed page and no backup of one stays as it was. -/
theorem entry (run : Repaired t log u) (apart : ∀ x ∈ log, x.2 ≠ m ∧ backupOf x.2 ≠ m) : u.get? m = t.get? m := by
  induction run with
  | done t => rfl
  | step first more ih =>
    obtain ⟨page, others⟩ := List.forall_mem_cons.mp apart
    rw [ih others, first.entry, if_neg (Ne.symm page.1), if_neg (Ne.symm page.2)]

theorem split (run : Repaired t (front ++ (p, l) :: back) u) :
    ∃ v w old new, Repaired t front v ∧ Rewritten v w p l old new ∧ Repaired w back u := by
  induction front generalizing t with
  | nil =>
    cases run with
    | step first more => exact ⟨t, _, _, _, .done t, first, more⟩
  | cons x front ih =>
    cases run with
    | step first more =>
      obtain ⟨v, w, old, new, before, here, after⟩ := ih more
      exact ⟨v, w, old, new, .step first before, here, after⟩

theorem located (run : Repaired t log u) {x : Path × Location} (member : x ∈ log) :
    (∃ d n, x.2 = d ++ [n]) ∧ u.locate x.1 = .ok x.2 ∧ ∃ copy, u.readBytes (Path.backup x.1) = .ok copy := by
  obtain ⟨front, back, rfl⟩ := List.append_of_mem member
  obtain ⟨v, w, old, new, -, here, after⟩ := run.split
  obtain ⟨copy, there⟩ := after.grows.file here.copied
  exact ⟨here.named, after.grows.locate (here.grows.locate here.found), copy,
    FileTree.readBytes_of_file (after.grows.locate here.backup) there⟩

end Repaired

/-- The pages that a run has changed and where they are, in order. -/
def changedPages (t : FileTree) (results : List (Path × Change α)) : List (Path × Location) :=
  results.filterMap fun
    | (p, .changed _) => (t.locate p).toOption.map fun l => (p, l)
    | _ => none

/-- The backup of a page is what the page was before. -/
def Kept (t u : FileTree) (p : Path) : Prop := ∃ bytes, t.readBytes p = .ok bytes ∧ u.readBytes (Path.backup p) = .ok bytes

namespace Repaired

theorem forEach {f : FileTree → Path → FileTree × Change α} (steps : ∀ {t p u c}, f t p = (u, c) →
      (∃ what, c = .changed what) ∧ (∃ l old new, Rewritten t u p l old new) ∨ (∀ what, c ≠ .changed what) ∧ u = t)
    (t : FileTree) (files : List Path) : let ran := Command.forEach f t files
      Repaired t (changedPages ran.1 ran.2) ran.1 ∧
        (changedPages ran.1 ran.2).map Prod.fst = (ran.2.filter (·.2.isChanged)).map Prod.fst := by
  induction files generalizing t with
  | nil => exact ⟨.done t, rfl⟩
  | cons p files ih =>
    obtain ⟨more, same⟩ := ih (f t p).1
    rw [Command.forEach]
    generalize step : f t p = result at more same ⊢
    obtain ⟨u, c⟩ := result
    dsimp only at more same ⊢
    rcases steps step with ⟨⟨what, rfl⟩, l, old, new, first⟩ | ⟨other, rfl⟩
    · have place := more.grows.locate (first.grows.locate first.found)
      have logged : ∀ results, changedPages (Command.forEach f u files).1 ((p, Change.changed what) :: results) =
          (p, l) :: changedPages (Command.forEach f u files).1 results := by
        intro results
        rw [changedPages, List.filterMap_cons_some (b := (p, l))]
        · rfl
        · simp only [place, Except.toOption, Option.map_some]
      rw [logged]
      exact ⟨.step first more, by simp [same, Change.isChanged]⟩
    · have passed : ∀ results, changedPages (Command.forEach f u files).1 ((p, c) :: results) =
          changedPages (Command.forEach f u files).1 results := by
        intro results
        cases c with
        | changed what => exact absurd rfl (other what)
        | unchanged => rfl
        | failed e => rfl
      rw [passed]
      refine ⟨more, same.trans ?_⟩
      cases c with
      | changed what => exact absurd rfl (other what)
      | unchanged => rfl
      | failed e => rfl

/-- A page that is changed once has its backup, if its backup is not changed later and it was no backup itself before. -/
theorem kept (run : Repaired t (front ++ (p, l) :: back) u) (before : ∀ x ∈ front, x.2 ≠ l ∧ backupOf x.2 ≠ l)
    (after : ∀ x ∈ back, x.2 ≠ l ∧ x.2 ≠ backupOf l) : Kept t u p := by
  have places : ∀ x ∈ back, ∃ d n, x.2 = d ++ [n] := fun x member => (run.located (by simp [member])).1
  obtain ⟨v, w, old, new, first, here, last⟩ := run.split
  have file : t.get? l = some (.file old) := by
    rw [← first.entry before]
    exact here.file
  have found : t.locate p = .ok l := FileTree.locate_of_later first.current (fun m => first.directory.mp) (by rw [file]; rfl) here.found
  have copy : u.get? (backupOf l) = some (.file old) := by
    rw [last.entry fun x member => ⟨(after x member).2, ?_⟩]
    · exact here.copied
    · obtain ⟨d, n, named⟩ := here.named
      obtain ⟨e, k, place⟩ := places x member
      rw [named, place, Ne, FileTree.backupOf_inj, ← named, ← place]
      exact (after x member).1
  exact ⟨old, FileTree.readBytes_of_file found file, FileTree.readBytes_of_file (last.grows.locate here.backup) copy⟩

/-- A backup that is changed later is not what the page was, if neither of them is changed again. -/
theorem not_kept {q : Path} (first : Rewritten t v p l old new) (more : Repaired v (front ++ (q, backupOf l) :: back) u)
    (page : ∀ x ∈ front ++ back, x.2 ≠ l) (copy : ∀ x ∈ front ++ back, x.2 ≠ backupOf l) : ¬ Kept t u p := by
  have apart : ∀ x ∈ front ++ back, x.2 ≠ backupOf l ∧ backupOf x.2 ≠ backupOf l := by
    intro x member
    obtain ⟨d, n, named⟩ := first.named
    obtain ⟨⟨e, k, place⟩, -⟩ := more.located (x := x) (by simp at member ⊢; tauto)
    refine ⟨copy x member, ?_⟩
    rw [named, place, Ne, FileTree.backupOf_inj, ← named, ← place]
    exact page x member
  obtain ⟨a, b, old', new', before, here, after⟩ := more.split
  obtain rfl : old = old' := by
    have file := (before.entry fun x member => apart x (by simp [member])).trans first.copied
    simpa [file] using here.file
  have there : u.get? (backupOf l) = some (.file new') := by
    rw [after.entry fun x member => apart x (by simp [member]), here.entry, if_pos rfl]
  rintro ⟨bytes, was, has⟩
  have backup := after.grows.locate (here.grows.locate (before.grows.locate first.backup))
  rw [FileTree.readBytes_of_file first.found first.file] at was
  rw [FileTree.readBytes_of_file backup there, ← was] at has
  exact here.edited (Except.ok.inj has).symm

/-- In a run that changes no page twice and keeps what all of them were, no page is the backup of one that was changed before. -/
theorem pairwise (run : Repaired t log u) (once : (log.map Prod.snd).Nodup) (kept : ∀ x ∈ log, Kept t u x.1) :
    log.Pairwise fun x y => y.2 ≠ backupOf x.2 := by
  induction run with
  | done t => exact .nil
  | @step t v u p l old new log first more ih =>
    rw [List.map_cons, List.nodup_cons] at once
    obtain ⟨fresh, once⟩ := once
    have apart : ∀ x ∈ log, x.2 ≠ l := fun x member same => fresh (List.mem_map.mpr ⟨x, member, same⟩)
    obtain ⟨here, others⟩ := List.forall_mem_cons.mp kept
    have unchanged : ∀ y ∈ log, y.2 ≠ backupOf l := by
      rintro ⟨q, m⟩ member rfl
      obtain ⟨front, back, rfl⟩ := List.append_of_mem member
      refine not_kept first more (fun x inside => apart x (by simp at inside ⊢; tauto)) ?_ here
      rw [List.map_append, List.map_cons, List.nodup_middle, List.nodup_cons, ← List.map_append] at once
      exact fun x inside same => once.1 (List.mem_map.mpr ⟨x, inside, same⟩)
    refine .cons unchanged (ih once fun x member => ?_)
    -- What a later page was before the run, it still was after the first page was changed.
    obtain ⟨bytes, before, copy⟩ := others x member
    obtain ⟨m, found, file⟩ := FileTree.readBytes_eq_ok before
    have place : m = x.2 := Except.ok.inj ((more.grows.locate (first.grows.locate found)).symm.trans (more.located member).2.1)
    refine ⟨bytes, FileTree.readBytes_of_file (first.grows.locate found) ?_, copy⟩
    rw [first.entry, if_neg (place ▸ apart x member), if_neg (place ▸ unchanged x member), file]

theorem kept_iff (run : Repaired t log u) (once : (log.map Prod.snd).Nodup) :
    (∀ x ∈ log, Kept t u x.1) ↔ log.Pairwise fun x y => y.2 ≠ backupOf x.2 := by
  refine ⟨run.pairwise once, fun apart => ?_⟩
  rintro ⟨p, l⟩ member
  obtain ⟨front, back, rfl⟩ := List.append_of_mem member
  rw [List.map_append, List.map_cons, List.nodup_middle, List.nodup_cons, ← List.map_append] at once
  have other : ∀ x ∈ front ++ back, x.2 ≠ l := fun x inside same => once.1 (List.mem_map.mpr ⟨x, inside, same⟩)
  obtain ⟨-, later, between⟩ := List.pairwise_append.mp apart
  refine run.kept (fun x inside => ⟨other x (by simp [inside]), ?_⟩) fun x inside => ⟨other x (by simp [inside]), ?_⟩
  · exact (between x inside (p, l) List.mem_cons_self).symm
  · exact (List.pairwise_cons.mp later).1 x inside

end Repaired

namespace FixRequest

theorem fixPage_cases {r : FixRequest} {s : Settings} {c : Change Report} (asked : r.backup = true) (real : r.dryRun = false)
    (result : r.fixPage s t p = (u, c)) :
    (∃ what, c = .changed what) ∧ (∃ l old new, Rewritten t u p l old new) ∨ (∀ what, c ≠ .changed what) ∧ u = t := by
  rw [fixPage, asked, real] at result
  refine editPage_cases (fun text edited what found => ?_) result
  unfold repair? at found
  dsimp only at found
  split at found
  next => cases found
  next changed =>
    obtain ⟨rfl, -⟩ := Prod.mk.inj (Option.some.inj found)
    exact changed

/-- What a run that repairs pages leaves in their backups. The backup of a repaired page is what the page was before the run, if
no other path leads to the page, the page is not the backup of one that was repaired before, and its backup is not repaired
later; and in a run that repairs no page twice, all backups are right exactly if none of them is repaired. -/
theorem backups_kept_iff (r : FixRequest) (asked : r.backup = true) (real : r.dryRun = false) (s : Settings) (t : FileTree)
    (files : List Path) :
    let ran := forEach (r.fixPage s) t files
    let fixed := changedPages ran.1 ran.2
    (∀ v, pages t r.inputs = .ok files → (r.run v s t).files = ran.1) ∧
    fixed.map Prod.fst = (ran.2.filter (·.2.isChanged)).map Prod.fst ∧
    (∀ front p l back, fixed = front ++ (p, l) :: back → (∀ x ∈ front, x.2 ≠ l ∧ backupOf x.2 ≠ l) →
      (∀ x ∈ back, x.2 ≠ l ∧ x.2 ≠ backupOf l) → Kept t ran.1 p) ∧
    ((fixed.map Prod.snd).Nodup →
      ((∀ x ∈ fixed, Kept t ran.1 x.1) ↔ fixed.Pairwise fun x y => y.2 ≠ backupOf x.2)) := by
  intro ran fixed
  obtain ⟨run, paths⟩ := Repaired.forEach (fixPage_cases asked real) t files
  refine ⟨fun v found => ?_, paths, fun front p l back whole before after => ?_, run.kept_iff⟩
  · rw [FixRequest.run, found]
    rfl
  · exact Repaired.kept (whole ▸ run) before after

/-- A request to repair the pages of the inputs. -/
def repairing (inputs : List Path) : FixRequest := { inputs }

/-- A page with a brace, and what it once was. -/
def withBrace : FileTree := ⟨[(["a.mdx"], .file (Text.encode "\x7bx")), (["a.mdx.backup"], .file (Text.encode "old"))], []⟩

theorem backups_kept_iff_single : (repairing ["a.mdx"]).backup = true ∧ (repairing ["a.mdx"]).dryRun = false ∧
    let ran := forEach ((repairing ["a.mdx"]).fixPage {}) withBrace ["a.mdx"]
    changedPages ran.1 ran.2 = ([("a.mdx", ["a.mdx"])] : List (Path × Location)) ∧ Kept withBrace ran.1 "a.mdx" :=
  ⟨rfl, rfl, by decide +kernel,
    (backups_kept_iff (repairing ["a.mdx"]) rfl rfl {} withBrace ["a.mdx"]).2.2.1 [] "a.mdx" ["a.mdx"] []
      (by decide +kernel) (by simp) (by simp)⟩

/-- A backup that is an input as well is repaired after it was made, and what the page was is lost. -/
theorem backups_not_kept :
    let inputs : List Path := ["a.mdx", "a.mdx.backup"]
    let ran := forEach ((repairing inputs).fixPage {}) withBrace inputs
    pages withBrace inputs = .ok inputs ∧
      changedPages ran.1 ran.2 = ([("a.mdx", ["a.mdx"]), ("a.mdx.backup", ["a.mdx.backup"])] : List (Path × Location)) ∧
      withBrace.readBytes "a.mdx" = .ok (Text.encode "\x7bx") ∧ ran.1.readBytes "a.mdx.backup" = .ok (Text.encode "\\\x7bx") := by
  decide +kernel

end FixRequest
end NotebookPages.Command
