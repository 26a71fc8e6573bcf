import FfiBindings.Proofs.Index.Merge

/-!
Merging the same paths once more. An export is written as one line, but it is read back as one only if its path holds no
line boundary: a separator such as U+2028 in the name of a file breaks the line that the export is looked for by. So a
second merge appends the exports of such paths again, each once, and nothing else (`newLines_merge`); in particular it
never appends the helper, which stands in the text by then or is declared by an export that is appended again. A merge
is idempotent exactly on paths that are on one line each (`merge_again`).
-/

set_option autoImplicit false
set_option relaxedAutoImplicit false

namespace FfiBindings.Index

open Text

/-- The exports whose paths hold a line boundary, each once. -/
def brokenExports (importPaths : List String) : List String :=
  ((importPaths.filter fun path => ¬IsLine path.toList).map exportLine).eraseDups

theorem brokenExports_eq_nil_iff (importPaths : List String) :
    brokenExports importPaths = [] ↔ ∀ path ∈ importPaths, IsLine path.toList := by
  have hnone (lines : List String) : lines.eraseDups = [] ↔ lines = [] := by
    cases lines <;> simp [List.eraseDups_cons]
  simp [brokenExports, hnone, List.filter_eq_nil_iff]

theorem freshExports_merge (prior : String) (importPaths : List String) :
    freshExports (merge prior importPaths) importPaths = brokenExports importPaths := by
  have hfilter : (importPaths.map exportLine).filter (· ∉ splitLines (merge prior importPaths)) =
      (importPaths.filter fun path => ¬IsLine path.toList).map exportLine := by
    rw [List.filter_map]
    refine congrArg (List.map exportLine) (List.filter_congr fun path hpath => ?_)
    simp only [Function.comp_apply, exportLine_mem_merge_iff prior hpath]
  rw [freshExports, freshLines_eq, hfilter, brokenExports]

/-- Some line after the first merge declares the helper, or else an export that is new to the second one does. -/
theorem declaresHelper_merge (prior : String) (importPaths : List String) :
    (splitLines (merge prior importPaths) ++ freshExports (merge prior importPaths) importPaths).any
      declaresHelper = true := by
  obtain ⟨line, hmem, hdeclares⟩ := List.any_eq_true.1 (any_declaresHelper_newLines prior importPaths)
  refine List.any_eq_true.2 ⟨line, List.mem_append.2 ?_, hdeclares⟩
  by_cases hthere : line ∈ splitLines (merge prior importPaths)
  · exact .inl hthere
  refine .inr (mem_freshLines.2 ⟨?_, hthere⟩)
  rcases List.mem_append.1 hmem with hprior | hnew
  · exact absurd (splitLines_subset_merge prior importPaths hprior) hthere
  · rcases mem_newLines_cases hnew with hfresh | hline
    · exact (mem_freshLines.1 hfresh).1
    · exact absurd (mem_splitLines_of_mem_newLines hnew hline) hthere

theorem newLines_merge (prior : String) (importPaths : List String) :
    newLines (merge prior importPaths) importPaths = brokenExports importPaths := by
  rw [← freshExports_merge prior importPaths]
  simp only [newLines, declaresHelper_merge, if_true]

/-- Merging the same paths again adds nothing. -/
theorem merge_merge (prior : String) {importPaths : List String} (h : ∀ path ∈ importPaths, IsLine path.toList) :
    merge (merge prior importPaths) importPaths = merge prior importPaths := by
  rw [merge_eq_self_iff, newLines_merge, brokenExports_eq_nil_iff]
  exact h

/-- A second merge of the same paths appends the exports whose paths hold a line boundary, whatever the text was. So it
adds nothing, and leaves the text as it is, exactly if there is none. -/
theorem merge_again (prior : String) (importPaths : List String) :
    newLines (merge prior importPaths) importPaths = brokenExports importPaths ∧
      (newLines (merge prior importPaths) importPaths = [] ↔ ∀ path ∈ importPaths, IsLine path.toList) ∧
      (merge (merge prior importPaths) importPaths = merge prior importPaths ↔
        ∀ path ∈ importPaths, IsLine path.toList) := by
  have hnew := newLines_merge prior importPaths
  refine ⟨hnew, ?_, ?_⟩
  · rw [hnew, brokenExports_eq_nil_iff]
  · rw [merge_eq_self_iff, hnew, brokenExports_eq_nil_iff]

/-- A file name with a line separator in it: its export is appended again. -/
theorem merge_grows_again :
    newLines (merge "" ["./mod/a\u2028b"]) ["./mod/a\u2028b"] = ["export * from \"./mod/a\u2028b\";"] ∧
      merge (merge "" ["./mod/a\u2028b"]) ["./mod/a\u2028b"] ≠ merge "" ["./mod/a\u2028b"] := by
  have hnew := newLines_merge "" ["./mod/a\u2028b"]
  have hbroken : brokenExports ["./mod/a\u2028b"] = ["export * from \"./mod/a\u2028b\";"] := by decide +kernel
  refine ⟨hnew.trans hbroken, ?_⟩
  rw [Ne, merge_eq_self_iff, hnew, hbroken]
  exact List.cons_ne_nil _ _

end FfiBindings.Index
