import IconCatalog.Command.Update
import IconCatalog.Proofs.Edit.Interrupted
import IconCatalog.Proofs.ImageHelper
/-!
Edits of the table and new bases for the image helpers, in any order. A new base changes its own
definition and leaves the table alone, an edit leaves the definitions alone, so that the two can be
exchanged.
-/
namespace IconCatalog
open Text Source ImageHelper

namespace Seed

theorem isInert_tablePreamble {p : Pattern} (hp : ∀ {t r}, p t = some r → "export".toList <+: t) :
    IsInert p tablePreamble := by
  have hword : ¬"export".toList <:+: tablePreamble := by
    rw [← mentions_iff]
    decide +kernel
  exact isInert_of_no_word (c := '\n') hp hword (by decide +kernel) (by decide)

theorem tableHead_eq (base : Text) : tableHead base =
    tablePreamble ++ (definitions base .lf ++ ("\n".toList ++ Table.standardHeader)) := by
  simp only [tableHead, tableLead, List.append_assoc]

theorem exists_tableHead : ∃ more, ∀ base,
    tableHead base = tablePreamble ++ (baseDefinition base ++ more) := by
  refine ⟨Newline.lf.text ++ ((Category.all.flatMap fun c => helperDefinition c ++
    Newline.lf.text) ++ ("\n".toList ++ Table.standardHeader)), fun base => ?_⟩
  rw [tableHead_eq, definitions]
  simp only [List.append_assoc]

/-- An address as base leads to no other heading, even if it names the table. -/
theorem isTableHead_of_isAddress {base : Text} (h : IsAddress base) :
    IsTableHead (tableHead base) := by
  have hstarts {t r : Text} (h : Table.header t = some r) : "export".toList <+: t :=
    Pattern.word_prefix_of_sequence h
  have hlines : ∀ o rest, Table.header (lineOf base o ++ rest) = none := by
    intro o rest
    cases o with
    | none => rfl
    | some c => cases c <;> rfl
  have hblank : IsInert Table.header "\n".toList :=
    Table.isInert_of_isQuiet (Table.isQuiet_of_not_mem (by decide)) rfl (by decide)
  refine isTableHead_of_isInert ?_ h.no_return
  exact ((isInert_tablePreamble hstarts).append (isInert_definitions h hstarts hlines)).append
    hblank

theorem retarget_tableHead {base : Text} (h : IsAddress base) (new behind : Text) :
    ImageHelper.retarget (tableHead base ++ behind) new = .ok (tableHead new ++ behind, 4) := by
  have hpreamble : ∀ o, IsInert (definitionOf (nameOf o)) tablePreamble := fun _ =>
    isInert_tablePreamble definitionOf_starts
  have hstate : tablePreamble.foldl LineState.step .start = .start := by decide +kernel
  have hmoved := retarget_definitions h hpreamble hstate new
    ("\n".toList ++ Table.standardHeader ++ behind)
  rw [tableHead_eq, tableHead_eq]
  simpa only [List.append_assoc] using hmoved

end Seed

namespace Command

theorem exists_outcome_retarget {path : Path} {new s t : Text} {n : Nat} {d : Disk}
    (hs : d.readText path = .ok s) (h : ImageHelper.retarget s new = .ok (t, n)) (hn : n ≠ 0) :
    ∃ d', (retarget path new).outcome d = (.ok (), d') ∧ d'.readText path = .ok t ∧
      ∀ p, d.locate p ≠ d.locate path → d'.readText p = d.readText p := by
  have hread : Run.exec (Run.readGenerated path) (.start d) = (.ok s, .start d) :=
    Run.exec_readGenerated hs
  by_cases hsame : t = s
  · subst hsame
    refine ⟨d, ?_, hs, fun _ _ => rfl⟩
    rw [Run.outcome, retarget, Run.exec_bind_ok hread]
    simp only [h, ne_eq, not_true_eq_false, if_false, hn]
    rfl
  · obtain ⟨d', hwrite, htext, -, hothers⟩ := Disk.exists_writeText hs t
    have hchange : Run.exec (Run.within (.writing path) (Run.change (·.writeText path t)))
        (.start d) = (.ok (), { Progress.start d with disk := d' }) :=
      Run.exec_within (Run.exec_change hwrite) _
    refine ⟨d', ?_, htext, hothers⟩
    rw [Run.outcome, retarget, Run.exec_bind_ok hread]
    simp only [h, ne_eq, hsame, not_false_eq_true, if_true, if_false, hn]
    rw [Run.exec_bind_ok hchange]
    rfl

end Command

namespace Seed
variable {target : Path} {base : Text} {t : Table} {ms : Category → Members} {d : Disk}

theorem Holds.retarget (hbase : IsAddress base) (h : Holds target (tableHead base) t ms d)
    (new : Text) : ∃ d', (Command.retarget (Site.tablePath target) new).outcome d = (.ok (), d') ∧
      Holds target (tableHead new) t ms d' := by
  have hnew := retarget_tableHead hbase new (t.renderBody .standard ++ tableTail)
  rw [← List.append_assoc, ← List.append_assoc] at hnew
  obtain ⟨d', hrun, htable, hothers⟩ :=
    Command.exists_outcome_retarget h.table hnew (by decide)
  refine ⟨d', hrun, htable, fun c => ?_, h.icons, h.names⟩
  rw [hothers _ (Edit.locate_enumPath_ne h.table c), h.members]

end Seed

inductive Step where
  | edit (call : Call)
  | retarget (base : Text)

namespace Step

def diskAfter (target : Path) (d : Disk) : Step → Disk
  | edit call => ((call.run target).outcome d).2
  | retarget base => ((Command.retarget (Site.tablePath target) base).outcome d).2

def baseAfter (base : Text) : Step → Text
  | edit _ => base
  | retarget new => new

end Step

namespace Seed
variable {target : Path} {base : Text} {t : Table} {ms : Category → Members} {d : Disk}

theorem Holds.takeStep (hbase : IsAddress base) (h : Holds target (tableHead base) t ms d)
    (step : Step) :
    ∃ t' ms', Holds target (tableHead (step.baseAfter base)) t' ms' (step.diskAfter target d) := by
  cases step with
  | edit call =>
    obtain ⟨t', ms', h'⟩ := h.attempt (isTableHead_of_isAddress hbase) (.finished call)
    exact ⟨t', ms', h'⟩
  | retarget new =>
    obtain ⟨d', hrun, h'⟩ := h.retarget hbase new
    rw [Step.diskAfter, hrun]
    exact ⟨t, ms, h'⟩

theorem Holds.takeSteps (hbase : IsAddress base) (h : Holds target (tableHead base) t ms d)
    {steps : List Step} (hsteps : ∀ new, Step.retarget new ∈ steps → IsAddress new) :
    IsAddress (steps.foldl Step.baseAfter base) ∧ ∃ t' ms',
      Holds target (tableHead (steps.foldl Step.baseAfter base)) t' ms'
        (steps.foldl (Step.diskAfter target) d) := by
  induction steps generalizing base t ms d with
  | nil => exact ⟨hbase, t, ms, h⟩
  | cons step steps ih =>
    have hnext : IsAddress (step.baseAfter base) := by
      cases step with
      | edit call => exact hbase
      | retarget new => exact hsteps new List.mem_cons_self
    obtain ⟨t', ms', h'⟩ := h.takeStep hbase step
    exact ih hnext h' fun new hnew => hsteps new (.tail step hnew)

theorem Holds.retarget_step (hbase : IsAddress base) (h : Holds target (tableHead base) t ms d)
    {new : Text} (hnew : IsAddress new) {call : Call} (hname : Edit.isValidName call.name = true) :
    ∃ report report' d₁ d₂ e₁ e₂ t' ms',
      (Command.retarget (Site.tablePath target) new).outcome d = (.ok (), d₁) ∧
      (call.run target).outcome d₁ = (.ok report, d₂) ∧
      (call.run target).outcome d = (.ok report', e₁) ∧
      (Command.retarget (Site.tablePath target) new).outcome e₁ = (.ok (), e₂) ∧
      Holds target (tableHead new) t' ms' d₂ ∧ Holds target (tableHead new) t' ms' e₂ := by
  obtain ⟨d₁, hrun₁, h₁⟩ := h.retarget hbase new
  obtain ⟨report, d₂, hrun₂, h₂⟩ :=
    h₁.step (isTableHead_of_isAddress hnew) call.action call.artwork call.category hname
  obtain ⟨report', e₁, hrun₃, h₃⟩ :=
    h.step (isTableHead_of_isAddress hbase) call.action call.artwork call.category hname
  obtain ⟨e₂, hrun₄, h₄⟩ := h₃.retarget hbase new
  exact ⟨report, report', d₁, d₂, e₁, e₂, _, _, hrun₁, hrun₂, hrun₃, hrun₄, h₂, h₄⟩

/-- After any edits and new bases on new files, a new base replaces all four definitions and changes
the text of the base only, once and for all, and it can be exchanged with the next edit. -/
theorem retarget_commutes (hbase : IsAddress base)
    (htable : d.readText (Site.tablePath target) = .ok (tableSource base))
    (henum : ∀ c, d.readText (Site.enumPath target c) = .ok (enumSource c)) (steps : List Step)
    (hsteps : ∀ new, Step.retarget new ∈ steps → IsAddress new) :
    let path := Site.tablePath target
    let now := steps.foldl (Step.diskAfter target) d
    let old := steps.foldl Step.baseAfter base
    (∃ behind, now.readText path = .ok (tablePreamble ++ (baseDefinition old ++ behind)) ∧
      ∀ new, IsAddress new →
        ImageHelper.retarget (tablePreamble ++ (baseDefinition old ++ behind)) new =
          .ok (tablePreamble ++ (baseDefinition new ++ behind), 4) ∧
        ImageHelper.retarget (tablePreamble ++ (baseDefinition new ++ behind)) new =
          .ok (tablePreamble ++ (baseDefinition new ++ behind), 4)) ∧
    (∀ new, IsAddress new → ∀ call : Call, Edit.isValidName call.name = true →
      ∃ report report' d₁ d₂ e₁ e₂ text,
        (Command.retarget path new).outcome now = (.ok (), d₁) ∧
        (call.run target).outcome d₁ = (.ok report, d₂) ∧
        (call.run target).outcome now = (.ok report', e₁) ∧
        (Command.retarget path new).outcome e₁ = (.ok (), e₂) ∧
        d₂.readText path = .ok text ∧ e₂.readText path = .ok text) ∧
    ∀ new, IsAddress new →
      ImageHelper.retarget (tableSource base) new = .ok (tableSource new, 4) := by
  intro path now old
  obtain ⟨hold, t, ms, h⟩ := (holds_empty htable henum).takeSteps hbase hsteps
  refine ⟨?_, fun new hnew call hname => ?_, fun new _ => ?_⟩
  · obtain ⟨more, hmore⟩ := exists_tableHead
    have hsplit (base : Text) : tableHead base ++ t.renderBody .standard ++ tableTail =
        tablePreamble ++
          (baseDefinition base ++ (more ++ t.renderBody .standard ++ tableTail)) := by
      rw [hmore]
      simp only [List.append_assoc]
    have hmoved {base : Text} (hbase : IsAddress base) (new : Text) :
        ImageHelper.retarget (tableHead base ++ t.renderBody .standard ++ tableTail) new =
          .ok (tableHead new ++ t.renderBody .standard ++ tableTail, 4) := by
      rw [List.append_assoc, List.append_assoc]
      exact retarget_tableHead hbase new _
    refine ⟨more ++ t.renderBody .standard ++ tableTail, ?_, fun new hnew => ⟨?_, ?_⟩⟩
    · rw [← hsplit]
      exact h.table
    · rw [← hsplit, ← hsplit]
      exact hmoved hold new
    · rw [← hsplit]
      exact hmoved hnew new
  · obtain ⟨report, report', d₁, d₂, e₁, e₂, t', ms', hrun₁, hrun₂, hrun₃, hrun₄, h₂, h₄⟩ :=
      h.retarget_step hold hnew hname
    exact ⟨report, report', d₁, d₂, e₁, e₂, _, hrun₁, hrun₂, hrun₃, hrun₄, h₂.table, h₄.table⟩
  · rw [tableSource_eq, tableSource_eq, List.append_assoc, List.append_assoc]
    exact retarget_tableHead hbase new _

/-- A base with two slashes takes the place of one that names the table, between two edits. -/
theorem retarget_commutes_of_named_base :
    let base := "/iconMap, \x7d".toList
    let target : Path := ⟨"icons".toList⟩
    let d := Edit.diskWith (tableSource base) enumSource
    let steps : List Step := [.edit ⟨.add, .token, "NEAR".toList, .builtin⟩,
      .retarget "https://images.example/x;y".toList,
      .edit ⟨.add, .wallet, "const".toList, .empty⟩]
    let now := steps.foldl (Step.diskAfter target) d
    IsAddress base ∧ d.readText (Site.tablePath target) = .ok (tableSource base) ∧
    (∀ c, d.readText (Site.enumPath target c) = .ok (enumSource c)) ∧
    (∀ new, Step.retarget new ∈ steps → IsAddress new) ∧
    ∃ behind, now.readText (Site.tablePath target) = .ok (tablePreamble ++
      (baseDefinition "https://images.example/x;y".toList ++ behind)) := by
  intro base target d steps now
  have hbase : IsAddress base :=
    ⟨by decide, by decide, by decide, by decide, by rw [← mentions_iff]; decide⟩
  have htable := Edit.readText_diskWith_table (tableSource base) enumSource
  have henum := Edit.readText_diskWith_enum (tableSource base) enumSource
  have hsteps : ∀ new, Step.retarget new ∈ steps → IsAddress new := by
    intro new hnew
    obtain rfl : new = "https://images.example/x;y".toList := by simpa [steps] using hnew
    exact ⟨by decide, by decide, by decide, by decide, by rw [← mentions_iff]; decide⟩
  obtain ⟨behind, hnow, -⟩ := (retarget_commutes hbase htable henum steps hsteps).1
  exact ⟨hbase, htable, henum, hsteps, behind, hnow⟩

end Seed
end IconCatalog
