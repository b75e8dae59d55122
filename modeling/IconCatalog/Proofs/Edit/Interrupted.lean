import IconCatalog.Proofs.Edit.Catalog
/-!
Edits that stop between their two writes. Whatever such edits have left behind, all files can be
read, and to make an edit again completes it.
-/
namespace IconCatalog
open Text Source

def Call.begin (call : Call) (target : Path) : Run (EnumFile × Revision) :=
  Edit.firstHalf call.action ⟨target, call.artwork⟩ call.category call.name

/-- A call that is finished, or one that stops behind its write of the table. -/
inductive Attempt where
  | finished (call : Call)
  | stopped (call : Call)

def Attempt.diskAfter (target : Path) (d : Disk) : Attempt → Disk
  | finished call => ((call.run target).outcome d).2
  | stopped call => ((call.begin target).outcome d).2

namespace Edit
variable {name : Text}

theorem firstHalf_of_invalid (action : Action) (w : Workshop) (category : Category)
    (h : isValidName name = false) (d : Disk) :
    ((firstHalf action w category name).outcome d).2 = d := by
  rw [Run.outcome, firstHalf, Run.exec_bind, plan]
  simp only [h]
  rfl

end Edit

namespace Seed
variable {target : Path} {head base : Text} {t : Table} {ms : Category → Members} {d : Disk}

theorem Holds.attempt (hhead : IsTableHead head) (h : Holds target head t ms d)
    (attempt : Attempt) : ∃ t' ms', Holds target head t' ms' (attempt.diskAfter target d) := by
  cases attempt with
  | finished call =>
    rw [Attempt.diskAfter]
    by_cases hname : Edit.isValidName call.name = true
    · obtain ⟨report, d', hrun, h'⟩ := h.step hhead call.action call.artwork call.category hname
      rw [Call.run, hrun]
      exact ⟨_, _, h'⟩
    · rw [Call.run, Edit.outcome_of_invalid _ _ _ (by simpa using hname)]
      exact ⟨t, ms, h⟩
  | stopped call =>
    rw [Attempt.diskAfter, Call.begin]
    by_cases hname : Edit.isValidName call.name = true
    · obtain ⟨p, hrun, -, h'⟩ :=
        h.firstHalf hhead call.action call.artwork call.category hname
      rw [Run.outcome, hrun]
      exact ⟨_, _, h'⟩
    · rw [Edit.firstHalf_of_invalid _ _ _ (by simpa using hname)]
      exact ⟨t, ms, h⟩

theorem Holds.attempts (hhead : IsTableHead head) (h : Holds target head t ms d)
    (attempts : List Attempt) :
    ∃ t' ms', Holds target head t' ms' (attempts.foldl (Attempt.diskAfter target) d) := by
  induction attempts generalizing t ms d with
  | nil => exact ⟨t, ms, h⟩
  | cons attempt attempts ih =>
    obtain ⟨t', ms', h'⟩ := h.attempt hhead attempt
    exact ih h'

/-- After any finished and stopped edits on new files, all four files are accepted by their readers,
and an edit that stops and is made again succeeds and leaves the disk that it leaves when it is made
once. -/
theorem rerun_completes (hbase : IsBase base)
    (htable : d.readText (Site.tablePath target) = .ok (tableSource base))
    (henum : ∀ c, d.readText (Site.enumPath target c) = .ok (enumSource c))
    (attempts : List Attempt) :
    let now := attempts.foldl (Attempt.diskAfter target) d
    ((∃ s f, now.readText (Site.tablePath target) = .ok s ∧ TableFile.read s = .ok f) ∧
      ∀ c, ∃ e g, now.readText (Site.enumPath target c) = .ok e ∧ EnumFile.read c e = .ok g) ∧
    ∀ call : Call, Edit.isValidName call.name = true →
      ∃ left report report' stopped finished,
        (call.begin target).outcome now = (.ok left, stopped) ∧
        (call.run target).outcome stopped = (.ok report, finished) ∧
        (call.run target).outcome now = (.ok report', finished) := by
  intro now
  have hhead : IsTableHead (tableHead base) := fun _ => read_table hbase
  obtain ⟨t, ms, h⟩ := (holds_empty htable henum).attempts hhead attempts
  exact ⟨h.isRead hhead, fun call hname =>
    h.rerun hhead call.action call.artwork call.category hname⟩

/-- A token is added by an edit that stops, and removed by another one before it is in any
enumeration. -/
theorem rerun_completes_stopped :
    let base := "/img".toList
    let target : Path := ⟨"icons".toList⟩
    let d := Edit.diskWith (tableSource base) enumSource
    let attempts : List Attempt := [.stopped ⟨.add, .token, "BTC".toList, .empty⟩,
      .finished ⟨.add, .token, "ETH".toList, .empty⟩,
      .stopped ⟨.remove, .token, "ETH".toList, .empty⟩]
    let now := attempts.foldl (Attempt.diskAfter target) d
    let call : Call := ⟨.remove, .token, "ETH".toList, .empty⟩
    IsBase base ∧ d.readText (Site.tablePath target) = .ok (tableSource base) ∧
    (∀ c, d.readText (Site.enumPath target c) = .ok (enumSource c)) ∧
    Edit.isValidName call.name = true ∧
    ∃ left report report' stopped finished,
      (call.begin target).outcome now = (.ok left, stopped) ∧
      (call.run target).outcome stopped = (.ok report, finished) ∧
      (call.run target).outcome now = (.ok report', finished) := by
  intro base target d attempts now call
  have hbase : IsBase base := ⟨by decide, by decide, by rw [← mentions_iff]; decide⟩
  have htable := Edit.readText_diskWith_table (tableSource base) enumSource
  have henum := Edit.readText_diskWith_enum (tableSource base) enumSource
  have hname : Edit.isValidName call.name = true := by decide
  exact ⟨hbase, htable, henum, hname,
    (rerun_completes hbase htable henum attempts).2 call hname⟩

end Seed
end IconCatalog
