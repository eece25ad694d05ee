import Mathlib.Data.List.Nodup
import ServerLib.Common.LogFileNames

/-!
# Which files are removed

The files that match are kept in a map ordered by their ids, and the first ones are removed until
no more are left than the configuration allows. The removal of a file is taken to succeed.
-/
namespace ServerLib

/-- What is in a directory, in the order in which it is read. No name is there twice. -/
structure LogDirectory where
  files : List LogFile
  distinct : (files.map LogFile.name).Nodup

theorem LogDirectory.nodup (directory : LogDirectory) : directory.files.Nodup :=
  List.Nodup.of_map LogFile.name directory.distinct

namespace LogFilesWatchdog

/-- The second file is not older than the first one. -/
def NotOlder (f g : LogFile) : Prop := g.sequenceId.lt f.sequenceId = false

theorem notOlder_of_lt {f g : LogFile} (older : f.sequenceId.lt g.sequenceId = true) :
    NotOlder f g := by
  simp only [NotOlder, FileSequenceId.lt, Bool.or_eq_true, Bool.and_eq_true, decide_eq_true_eq,
    beq_iff_eq, Bool.or_eq_false_iff, Bool.and_eq_false_iff, decide_eq_false_iff_not,
    beq_eq_false_iff_ne] at older ⊢
  omega

theorem NotOlder.trans {f g h : LogFile} (first : NotOlder f g) (second : NotOlder g h) :
    NotOlder f h := by
  simp only [NotOlder, FileSequenceId.lt, Bool.or_eq_false_iff, Bool.and_eq_false_iff,
    decide_eq_false_iff_not, beq_eq_false_iff_ne] at first second ⊢
  omega

theorem emplace_sorted {matched : List LogFile} (sorted : matched.Pairwise NotOlder)
    (f : LogFile) : (emplace matched f).Pairwise NotOlder := by
  induction matched with
  | nil => exact List.pairwise_singleton _ _
  | cons g matched ih =>
    obtain ⟨first, rest⟩ := List.pairwise_cons.mp sorted
    rw [emplace]
    split
    next older =>
      have before := notOlder_of_lt older
      refine List.pairwise_cons.mpr ⟨?_, sorted⟩
      intro h member
      rcases List.mem_cons.mp member with rfl | behind
      · exact before
      · exact before.trans (first h behind)
    next other =>
      refine List.pairwise_cons.mpr ⟨?_, ih rest⟩
      intro h member
      rcases List.mem_cons.mp ((emplace_perm matched f).mem_iff.mp member) with rfl | behind
      · exact Bool.eq_false_of_not_eq_true other
      · exact first h behind

theorem foldl_emplace_sorted {matched : List LogFile} (sorted : matched.Pairwise NotOlder)
    (files : List LogFile) : (files.foldl emplace matched).Pairwise NotOlder := by
  induction files generalizing matched with
  | nil => exact sorted
  | cons f files ih => exact ih (emplace_sorted sorted f)

variable {lib : WatchdogLibrary} {config : LogFilesWatchdogConfig}

/-- The files that match, on their own and not only behind others. -/
def accepted (lib : WatchdogLibrary) (config : LogFilesWatchdogConfig) (files : List LogFile) :
    List LogFile := files.filter fun f => (matchFile lib config f []).1

/-- As many of the files that match, in the order of their ids, as there are too many. -/
theorem removeExcessLogs_eq (valid : checkPattern config.logVariablePattern) (lib : WatchdogLibrary)
    (files : List LogFile) :
    ∃ matched : List LogFile, matched.Perm (accepted lib config files) ∧
      matched.Pairwise NotOlder ∧
      removeExcessLogs lib config files = matched.take (matched.length - config.maxFiles) := by
  have perm := foldl_emplace_perm (matchedFiles lib config [] files) []
  rw [List.append_nil] at perm
  refine ⟨(matchedFiles lib config [] files).foldl emplace [], ?_,
    foldl_emplace_sorted List.Pairwise.nil _, ?_⟩
  · rw [accepted, ← matchedFiles_eq_filter]
    exact perm
  · rw [removeExcessLogs, baseMaxFilesStrategy, if_neg (not_not.mpr valid)]
    dsimp only
    split
    next more => rw [actWhile_eq_take, sizeSub_of_le (Nat.le_of_lt more)]
    next few => rw [Nat.sub_eq_zero_of_le (Nat.not_lt.mp few), List.take_zero]

/-- What is left when the first part of a list without repetitions is taken out. -/
theorem filter_notMem_left {front back : List LogFile} (nodup : (front ++ back).Nodup) :
    (front ++ back).filter (· ∉ front) = back := by
  obtain ⟨_, _, apart⟩ := List.nodup_append.mp nodup
  have out : front.filter (· ∉ front) = [] := by
    rw [List.filter_eq_nil_iff]
    intro f member
    simp [member]
  have stay : back.filter (· ∉ front) = back := by
    rw [List.filter_eq_self]
    intro f member
    have other : f ∉ front := fun before => apart f before f member rfl
    simp [other]
  rw [List.filter_append, out, stay, List.nil_append]

theorem create_ok {logName pattern extension : List UInt8} {maxFiles : Nat}
    (created : create logName pattern extension maxFiles = .ok config) :
    checkPattern config.logVariablePattern = true ∧ config.maxFiles = maxFiles := by
  unfold create at created
  split at created
  · cases created
  next valid =>
    split at created
    · cases created
    · cases created
      exact ⟨not_not.mp valid, rfl⟩

/-- Of the files that match just as many are removed as there are too many, and none that is newer
than one that is kept. The others stay, and then nothing is left to be removed, in whatever order
the directory is read. -/
theorem removes_oldest_surplus {logName pattern extension : List UInt8} {maxFiles : Nat}
    (created : create logName pattern extension maxFiles = .ok config) (lib : WatchdogLibrary)
    (directory : LogDirectory) :
    let removed := removeExcessLogs lib config directory.files
    let left := directory.files.filter (· ∉ removed)
    removed.Nodup ∧
      removed.length = (accepted lib config directory.files).length - maxFiles ∧
      removed ⊆ accepted lib config directory.files ∧
      (∀ f ∈ removed, ∀ g ∈ accepted lib config directory.files, g ∉ removed →
        g.sequenceId.lt f.sequenceId = false) ∧
      (∀ f ∈ directory.files, f ∉ accepted lib config directory.files → f ∈ left) ∧
      (accepted lib config left).length ≤ maxFiles ∧
      ∀ later, later.Perm left → removeExcessLogs lib config later = [] := by
  intro removed left
  obtain ⟨valid, rfl⟩ := create_ok created
  obtain ⟨matched, perm, sorted, is⟩ := removeExcessLogs_eq valid lib directory.files
  have nodup : matched.Nodup := perm.nodup_iff.mpr (directory.nodup.filter _)
  change removed = _ at is
  generalize count_eq : matched.length - config.maxFiles = count at is
  have cut := List.take_append_drop count matched
  rw [← is] at cut
  generalize rest_eq : matched.drop count = rest at cut
  -- what is kept of the files that match is what stands behind those that are removed
  have kept : (accepted lib config left).Perm rest := by
    have swapped : accepted lib config left =
        (accepted lib config directory.files).filter (· ∉ removed) := List.filter_comm ..
    have same := perm.symm.filter (· ∉ removed)
    rw [← cut, filter_notMem_left (cut ▸ nodup)] at same
    rw [swapped]
    exact same
  have few : (accepted lib config left).length ≤ config.maxFiles := by
    rw [kept.length_eq, ← rest_eq, List.length_drop]
    omega
  have subset : removed ⊆ accepted lib config directory.files := by
    intro f member
    rw [← perm.mem_iff, ← cut]
    exact List.mem_append_left rest member
  refine ⟨?_, ?_, subset, ?_, ?_, few, ?_⟩
  · rw [is]
    exact nodup.sublist (List.take_sublist _ _)
  · rw [is, List.length_take, ← perm.length_eq]
    omega
  · intro f member g among other
    rw [← perm.mem_iff, ← cut, List.mem_append] at among
    rw [← cut, List.pairwise_append] at sorted
    exact sorted.2.2 f member g (among.resolve_left other)
  · intro f member other
    rw [List.mem_filter, decide_eq_true_eq]
    exact ⟨member, fun gone => other (subset gone)⟩
  · intro later read
    obtain ⟨matched', perm', _, is'⟩ := removeExcessLogs_eq valid lib later
    have length : matched'.length = (accepted lib config left).length :=
      perm'.length_eq.trans (read.filter _).length_eq
    rw [is', Nat.sub_eq_zero_of_le (length ▸ few), List.take_zero]

/-- A directory with a log and an older file that is taken for one. -/
def twoLogs : LogDirectory := ⟨[CountPattern.log, CountPattern.backup], by decide⟩

theorem removes_oldest_surplus_two :
    create (ascii "file_") (ascii "file_%N") [] 1 = .ok CountPattern.plain.config ∧
      (removeExcessLogs CountPattern.noLibrary CountPattern.plain.config twoLogs.files).length = 1 ∧
      ∀ f ∈ removeExcessLogs CountPattern.noLibrary CountPattern.plain.config twoLogs.files,
        f = CountPattern.log ∨ f = CountPattern.backup := by
  have created : create (ascii "file_") (ascii "file_%N") [] 1 = .ok CountPattern.plain.config := by
    rfl
  have all : accepted CountPattern.noLibrary CountPattern.plain.config twoLogs.files =
      twoLogs.files := by
    rw [accepted, List.filter_eq_self]
    intro f member
    rcases List.mem_pair.mp member with rfl | rfl
    · exact (CountPattern.plain.matchFile_iff CountPattern.noLibrary rfl []).mpr (by decide)
    · exact (CountPattern.plain.matchFile_iff CountPattern.noLibrary rfl []).mpr (by decide)
  obtain ⟨_, length, subset, _⟩ :=
    removes_oldest_surplus created CountPattern.noLibrary twoLogs
  rw [all] at length subset
  refine ⟨created, length, fun f member => ?_⟩
  exact List.mem_pair.mp (subset member)

end LogFilesWatchdog

end ServerLib
