import FfiBindings.Index.Merge
import FfiBindings.Proofs.Text.Line

/-!
What merging does to the text of an index, once and over any number of merges. The lines that a merge
adds are the ones that are read back after it (`splitLines_merge`), so the next merge finds them. What a
history of merges appends is told from the batches alone (`splitLines_foldl_merge`): the export lines in
the order in which they first occur, without those that the text had at the beginning, and the helper
after the lines of the first batch unless the text declared it.
-/

set_option autoImplicit false
set_option relaxedAutoImplicit false

namespace FfiBindings.Index

open Text

/-! ### Lines that are not there yet -/

theorem freshLines_eq (present lines : List String) :
    freshLines present lines = (lines.filter (· ∉ present)).eraseDups := by
  induction lines generalizing present with
  | nil => rfl
  | cons line lines ih =>
    by_cases hline : line ∈ present
    · simp [freshLines, hline, ih]
    · have hskip : (lines.filter (· ∉ present)).filter (fun other => !other == line) =
          lines.filter (· ∉ line :: present) := by
        rw [List.filter_filter]
        apply List.filter_congr
        intro other _
        by_cases hother : other = line <;> simp [hother]
      simp only [freshLines, List.contains_eq_mem, hline, decide_false, Bool.false_eq_true, if_false,
        ih, List.filter_cons, not_false_eq_true, decide_true, if_true, List.eraseDups_cons, hskip]

theorem mem_freshLines {present lines : List String} {line : String} :
    line ∈ freshLines present lines ↔ line ∈ lines ∧ line ∉ present := by
  simp [freshLines_eq]

theorem nodup_freshLines (present lines : List String) : (freshLines present lines).Nodup := by
  induction lines generalizing present with
  | nil => exact List.nodup_nil
  | cons line lines ih =>
    unfold freshLines
    split
    · exact ih present
    · refine List.nodup_cons.2 ⟨fun hmem => ?_, ih (line :: present)⟩
      exact (mem_freshLines.1 hmem).2 (by simp)

/-- Only what is present among the lines themselves matters. -/
theorem freshLines_congr {present other lines : List String}
    (h : ∀ line ∈ lines, line ∈ present ↔ line ∈ other) :
    freshLines present lines = freshLines other lines := by
  have hfilter : lines.filter (· ∉ present) = lines.filter (· ∉ other) := by
    apply List.filter_congr
    intro line hline
    simp [h line hline]
  rw [freshLines_eq, freshLines_eq, hfilter]

theorem freshLines_append (present first second : List String) :
    freshLines present (first ++ second) =
      freshLines present first ++ freshLines (present ++ first) second := by
  have hsecond : (second.filter (· ∉ present)).removeAll (first.filter (· ∉ present)) =
      second.filter (· ∉ present ++ first) := by
    rw [List.removeAll, List.filter_filter]
    apply List.filter_congr
    intro line _
    by_cases hpresent : line ∈ present <;> simp [hpresent]
  rw [freshLines_eq, freshLines_eq, freshLines_eq, List.filter_append, List.eraseDups_append, hsecond]

/-! ### The lines that are written -/

/-- An import path on one line that does not read like a declaration of the helper. -/
structure IsImportable (importPath : String) : Prop where
  isLine : IsLine importPath.toList
  noHelper : declaresHelper (exportLine importPath) = false

instance (importPath : String) : Decidable (IsImportable importPath) :=
  decidable_of_iff (IsLine importPath.toList ∧ declaresHelper (exportLine importPath) = false)
    ⟨fun ⟨hline, hhelper⟩ => ⟨hline, hhelper⟩, fun h => ⟨h.isLine, h.noHelper⟩⟩

theorem toList_exportLine (importPath : String) :
    (exportLine importPath).toList =
      "export * from \"".toList ++ (importPath.toList ++ "\";".toList) := by
  show ("export * from \"" ++ importPath ++ "\";").toList = _
  rw [String.append_assoc, String.toList_append, String.toList_append]

theorem isLine_exportLine {importPath : String} (h : IsLine importPath.toList) :
    IsLine (exportLine importPath).toList := by
  have hopening : IsLine "export * from \"".toList := by decide
  have hclosing : IsLine "\";".toList := by decide
  intro c hc
  rw [toList_exportLine, List.mem_append, List.mem_append] at hc
  rcases hc with hc | hc | hc
  · exact hopening c hc
  · exact h c hc
  · exact hclosing c hc

theorem isLine_exportLine_iff {importPath : String} :
    IsLine (exportLine importPath).toList ↔ IsLine importPath.toList := by
  refine ⟨fun h c hc => h c ?_, isLine_exportLine⟩
  rw [toList_exportLine]
  exact List.mem_append_right _ (List.mem_append_left _ hc)

theorem isLine_helperLines {line : String} (h : line ∈ helperLines) : IsLine line.toList := by
  have hall : ∀ line ∈ helperLines, IsLine line.toList := by decide
  exact hall line h

theorem declaresHelper_helperLines : helperLines.any declaresHelper = true := by
  decide

/-- Every export line begins as no line of the helper does. -/
theorem take_exportLine (importPath : String) :
    (exportLine importPath).toList.take 8 = "export *".toList := by
  rw [toList_exportLine, List.take_append_of_le_length (by decide)]
  rfl

theorem exportLine_notMem_helperLines (importPath : String) : exportLine importPath ∉ helperLines := by
  have hall : ∀ line ∈ helperLines, line.toList.take 8 ≠ "export *".toList := by decide
  exact fun hmem => hall _ hmem (take_exportLine importPath)

theorem allBlank_exportLine (importPath : String) : allBlank (exportLine importPath) = false := by
  have hfirst : 'e' ∈ (exportLine importPath).toList.take 8 := by
    rw [take_exportLine]
    decide
  exact List.all_eq_false.2 ⟨'e', List.mem_of_mem_take hfirst, by decide⟩

theorem exportLine_ne_empty (importPath : String) : exportLine importPath ≠ "" := by
  intro h
  have hblank := allBlank_exportLine importPath
  rw [h] at hblank
  exact absurd hblank (by decide)

theorem allBlank_helperLines : ∀ line ∈ helperLines, allBlank line = false := by
  decide

/-- Whether some line of a text declares the helper. -/
def HasHelper (text : String) : Prop :=
  (splitLines text).any declaresHelper = true

instance (text : String) : Decidable (HasHelper text) :=
  inferInstanceAs (Decidable (_ = true))

variable {importPaths : List String}

theorem freshExports_noHelper (prior : String) (h : ∀ path ∈ importPaths, IsImportable path) :
    (freshExports prior importPaths).any declaresHelper = false := by
  rw [List.any_eq_false]
  intro line hline
  obtain ⟨path, hpath, rfl⟩ := List.mem_map.1 (mem_freshLines.1 hline).1
  simp [(h path hpath).noHelper]

theorem newLines_of_hasHelper {prior : String} (h : HasHelper prior) :
    newLines prior importPaths = freshExports prior importPaths := by
  have hany : (splitLines prior ++ freshExports prior importPaths).any declaresHelper = true := by
    rw [List.any_append, h, Bool.true_or]
  simp [newLines, hany]

theorem newLines_of_not_hasHelper {prior : String} (h : ¬ HasHelper prior)
    (hpaths : ∀ path ∈ importPaths, IsImportable path) :
    newLines prior importPaths = freshExports prior importPaths ++
      (if (freshExports prior importPaths).isEmpty then [] else [""]) ++ helperLines := by
  have hany : (splitLines prior ++ freshExports prior importPaths).any declaresHelper = false := by
    rw [List.any_append, freshExports_noHelper prior hpaths, Bool.or_false]
    exact Bool.eq_false_iff.2 h
  simp [newLines, hany]

/-- Whatever a merge appends besides exports is on one line. -/
theorem mem_newLines_cases {prior line : String} (hmem : line ∈ newLines prior importPaths) :
    line ∈ freshExports prior importPaths ∨ IsLine line.toList := by
  simp only [newLines] at hmem
  split at hmem
  · exact .inl hmem
  · rcases List.mem_append.1 hmem with hmem | hmem
    · rcases List.mem_append.1 hmem with hmem | hmem
      · exact .inl hmem
      · split at hmem
        · exact absurd hmem List.not_mem_nil
        · obtain rfl := List.mem_singleton.1 hmem
          exact .inr (by simp [IsLine])
    · exact .inr (isLine_helperLines hmem)

theorem isLine_newLines (prior : String) (h : ∀ path ∈ importPaths, IsLine path.toList) :
    ∀ line ∈ newLines prior importPaths, IsLine line.toList := by
  intro line hline
  rcases mem_newLines_cases hline with hfresh | hline
  · obtain ⟨path, hpath, rfl⟩ := List.mem_map.1 (mem_freshLines.1 hfresh).1
    exact isLine_exportLine (h path hpath)
  · exact hline

/-! ### One merge -/

theorem isEnding_lineEnd (prior : String) : IsEnding (lineEnd prior).toList := by
  unfold lineEnd
  split
  · exact .inr rfl
  · exact .inl rfl

theorem merge_eq_self {prior : String} (h : newLines prior importPaths = []) :
    merge prior importPaths = prior := by
  simp [merge, h]

/-- The appended lines as they are written. -/
def block (prior : String) (importPaths : List String) : String :=
  (lineEnd prior).intercalate (newLines prior importPaths) ++ lineEnd prior

theorem splitLines_block {prior : String} (hnew : newLines prior importPaths ≠ [])
    (h : ∀ path ∈ importPaths, IsLine path.toList) :
    splitLines (block prior importPaths) = newLines prior importPaths :=
  splitLines_written hnew (isLine_newLines prior h) (isEnding_lineEnd prior)

theorem merge_empty (h : newLines "" importPaths ≠ []) :
    merge "" importPaths = block "" importPaths := by
  simp [merge, block, h]

/-- The last line of the text is closed where it has to be, and an empty line stands before the block. -/
theorem merge_eq_append_block {prior : String} (hnew : newLines prior importPaths ≠ [])
    (hprior : prior ≠ "") :
    ∃ closing, (closing = "" ∨ closing = lineEnd prior) ∧
      merge prior importPaths = prior ++ closing ++ lineEnd prior ++ block prior importPaths := by
  by_cases hclosed : prior.toList.getLast? = some '\n'
  · exact ⟨"", .inl rfl, by simp [merge, block, hnew, hprior, hclosed]⟩
  · exact ⟨lineEnd prior, .inr rfl, by simp [merge, block, hnew, hprior, hclosed]⟩

theorem getLast?_block (front prior : String) (importPaths : List String) :
    (front ++ block prior importPaths).toList.getLast? = some '\n' := by
  have hending : (lineEnd prior).toList.getLast? = some '\n' := by
    unfold lineEnd
    split <;> rfl
  rw [block, ← String.append_assoc, String.toList_append, List.getLast?_append, hending, Option.some_or]

/-- A merge appends whole lines. -/
theorem merge_eq_append (prior : String) (importPaths : List String) :
    ∃ added, IsWhole added ∧ merge prior importPaths = prior ++ added := by
  by_cases hnew : newLines prior importPaths = []
  · exact ⟨"", .inl rfl, by rw [merge_eq_self hnew, String.append_empty]⟩
  · by_cases hprior : prior = ""
    · subst hprior
      refine ⟨"" ++ block "" importPaths, .inr (getLast?_block "" "" importPaths), ?_⟩
      rw [merge_empty hnew, String.empty_append, String.empty_append]
    · obtain ⟨closing, -, heq⟩ := merge_eq_append_block hnew hprior
      refine ⟨closing ++ lineEnd prior ++ block prior importPaths, .inr (getLast?_block _ prior importPaths), ?_⟩
      rw [heq, String.append_assoc, String.append_assoc, String.append_assoc]

theorem lineEnd_ne_empty (prior : String) : lineEnd prior ≠ "" := by
  unfold lineEnd
  split <;> decide

/-- A merge changes the text exactly when there are new lines. -/
theorem merge_eq_self_iff (prior : String) (importPaths : List String) :
    merge prior importPaths = prior ↔ newLines prior importPaths = [] := by
  refine ⟨fun hself => ?_, merge_eq_self⟩
  by_contra hnew
  have hblock : block prior importPaths ≠ "" := fun h =>
    lineEnd_ne_empty prior (String.append_eq_empty_iff.1 h).2
  by_cases hprior : prior = ""
  · subst hprior
    exact hblock ((merge_empty hnew).symm.trans hself)
  · obtain ⟨closing, -, hmerge⟩ := merge_eq_append_block hnew hprior
    rw [hmerge, String.append_assoc, String.append_assoc] at hself
    have hlength := congrArg String.length hself
    have hpositive : (lineEnd prior).length ≠ 0 := fun h =>
      lineEnd_ne_empty prior (String.length_eq_zero_iff.1 h)
    rw [String.length_append, String.length_append, String.length_append] at hlength
    omega

/-- The empty text lacks the helper, so a merge into it always adds something. -/
theorem merge_empty_ne (importPaths : List String) : merge "" importPaths ≠ "" := by
  rw [Ne, merge_eq_self_iff]
  intro hnone
  simp only [newLines] at hnone
  split at hnone
  · rename_i hhelper
    rw [hnone] at hhelper
    exact absurd hhelper (by decide)
  · exact absurd (List.append_eq_nil_iff.1 hnone).2 (by decide)

/-- The lines of a text stay the first ones in a merge, and the block is divided into lines by itself behind them, with
empty lines in between at most. -/
theorem splitLines_merge_block {prior : String} (hnew : newLines prior importPaths ≠ []) :
    ∃ blanks, (∀ blank ∈ blanks, blank = "") ∧
      splitLines (merge prior importPaths) =
        splitLines prior ++ blanks ++ splitLines (block prior importPaths) := by
  by_cases hprior : prior = ""
  · subst hprior
    exact ⟨[], by simp, by rw [merge_empty hnew]; rfl⟩
  have hending := isEnding_lineEnd prior
  obtain ⟨closing, hclosing, hmerge⟩ := merge_eq_append_block hnew hprior
  obtain ⟨last, hlast, hclose⟩ : ∃ blanks, (∀ blank ∈ blanks, blank = "") ∧
      splitLines (prior ++ closing) = splitLines prior ++ blanks := by
    rcases hclosing with rfl | rfl
    · exact ⟨[], by simp, by rw [String.append_empty, List.append_nil]⟩
    · simpa [splitLines_empty] using splitLines_append_ending prior hending ""
  obtain ⟨blanks, hblanks, heq⟩ :=
    splitLines_append_ending (prior ++ closing) hending (block prior importPaths)
  refine ⟨last ++ blanks, ?_, ?_⟩
  · intro blank hblank
    rcases List.mem_append.1 hblank with hblank | hblank
    · exact hlast blank hblank
    · exact hblanks blank hblank
  · rw [hmerge, heq, hclose, List.append_assoc (splitLines prior)]

/-- Where every path is on one line, what a merge appends is read back. -/
theorem splitLines_merge (prior : String) (h : ∀ path ∈ importPaths, IsLine path.toList) :
    ∃ blanks, (∀ blank ∈ blanks, blank = "") ∧
      splitLines (merge prior importPaths) =
        splitLines prior ++ blanks ++ newLines prior importPaths := by
  by_cases hnew : newLines prior importPaths = []
  · exact ⟨[], by simp, by rw [merge_eq_self hnew, hnew, List.append_nil, List.append_nil]⟩
  · obtain ⟨blanks, hblanks, heq⟩ := splitLines_merge_block hnew
    exact ⟨blanks, hblanks, by rw [heq, splitLines_block hnew h]⟩

/-- A line of a text is one of every merge into it. -/
theorem splitLines_subset_merge (prior : String) (importPaths : List String) :
    splitLines prior ⊆ splitLines (merge prior importPaths) := by
  intro line hline
  by_cases hnew : newLines prior importPaths = []
  · rwa [merge_eq_self hnew]
  · obtain ⟨blanks, -, heq⟩ := splitLines_merge_block hnew
    rw [heq, List.append_assoc]
    exact List.mem_append_left _ hline

/-- A line that a merge appends is read back if it is a line. -/
theorem mem_splitLines_of_mem_newLines {prior line : String} (hmem : line ∈ newLines prior importPaths)
    (hline : IsLine line.toList) : line ∈ splitLines (merge prior importPaths) := by
  obtain ⟨blanks, -, heq⟩ := splitLines_merge_block (List.ne_nil_of_mem hmem)
  rw [heq]
  exact List.mem_append_right _ (mem_splitLines_written hmem hline (isEnding_lineEnd prior))

theorem freshExports_subset (prior : String) (importPaths : List String) :
    freshExports prior importPaths ⊆ newLines prior importPaths := by
  intro line hline
  simp only [newLines]
  split
  · exact hline
  · exact List.mem_append_left _ (List.mem_append_left _ hline)

theorem any_declaresHelper_newLines (prior : String) (importPaths : List String) :
    (splitLines prior ++ newLines prior importPaths).any declaresHelper = true := by
  simp only [newLines]
  split
  · assumption
  · rw [List.any_append, List.any_append, declaresHelper_helperLines, Bool.or_true, Bool.or_true]

/-- After a merge the helper is there, whether or not it was before. -/
theorem hasHelper_merge (prior : String) (h : ∀ path ∈ importPaths, IsLine path.toList) :
    HasHelper (merge prior importPaths) := by
  obtain ⟨blanks, -, heq⟩ := splitLines_merge prior h
  have hany := any_declaresHelper_newLines prior importPaths
  rw [List.any_append] at hany
  rw [HasHelper, heq, List.any_append, List.any_append]
  rcases (Bool.or_eq_true _ _).mp hany with hprior | hnew
  · rw [hprior, Bool.true_or, Bool.true_or]
  · rw [hnew, Bool.or_true]

/-- After a merge an export is there exactly if its path is on one line. -/
theorem exportLine_mem_merge_iff (prior : String) {importPath : String} (hmem : importPath ∈ importPaths) :
    exportLine importPath ∈ splitLines (merge prior importPaths) ↔ IsLine importPath.toList := by
  rw [← isLine_exportLine_iff]
  refine ⟨isLine_of_mem_splitLines, fun hline => ?_⟩
  by_cases hpresent : exportLine importPath ∈ splitLines prior
  · exact splitLines_subset_merge prior importPaths hpresent
  · exact mem_splitLines_of_mem_newLines
      (freshExports_subset prior importPaths (mem_freshLines.2 ⟨List.mem_map_of_mem hmem, hpresent⟩)) hline

/-! ### Any number of merges -/

/-- The export lines of the paths in the order in which they first occur, without the lines of the
text. -/
def exportsBeyond (prior : String) (importPaths : List String) : List String :=
  ((importPaths.map exportLine).filter (· ∉ splitLines prior)).eraseDups

/-- The lines that are not all blank. -/
def written (lines : List String) : List String :=
  lines.filter fun line => !allBlank line

theorem freshExports_eq (prior : String) (importPaths : List String) :
    freshExports prior importPaths = exportsBeyond prior importPaths :=
  freshLines_eq _ _

theorem written_append (first second : List String) :
    written (first ++ second) = written first ++ written second :=
  List.filter_append first second

theorem written_eq_nil {blanks : List String} (h : ∀ blank ∈ blanks, blank = "") :
    written blanks = [] := by
  refine List.filter_eq_nil_iff.2 fun blank hblank => ?_
  rw [h blank hblank]
  decide

theorem written_eq_self {lines : List String} (h : ∀ line ∈ lines, allBlank line = false) :
    written lines = lines := by
  refine List.filter_eq_self.2 fun line hline => ?_
  rw [h line hline]
  rfl

theorem written_freshExports (prior : String) (importPaths : List String) :
    written (freshExports prior importPaths) = freshExports prior importPaths := by
  refine written_eq_self fun line hline => ?_
  obtain ⟨path, -, rfl⟩ := List.mem_map.1 (mem_freshLines.1 hline).1
  exact allBlank_exportLine path

theorem written_newLines (prior : String) (h : ∀ path ∈ importPaths, IsImportable path) :
    written (newLines prior importPaths) =
      freshExports prior importPaths ++ (if HasHelper prior then [] else helperLines) := by
  by_cases hhelper : HasHelper prior
  · rw [newLines_of_hasHelper hhelper, written_freshExports, if_pos hhelper, List.append_nil]
  · have hblank : written (if (freshExports prior importPaths).isEmpty then [] else [""]) = [] := by
      refine written_eq_nil fun blank hblank => ?_
      split at hblank
      · simp at hblank
      · exact List.mem_singleton.1 hblank
    rw [newLines_of_not_hasHelper hhelper h, written_append, written_append, hblank,
      written_freshExports, written_eq_self allBlank_helperLines, if_neg hhelper, List.append_nil]

/-- An export line is in a merge when it was in the text before or is one of those merged. -/
theorem exportLine_mem_splitLines_merge (prior : String) (h : ∀ path ∈ importPaths, IsImportable path)
    (importPath : String) :
    exportLine importPath ∈ splitLines (merge prior importPaths) ↔
      exportLine importPath ∈ splitLines prior ++ importPaths.map exportLine := by
  obtain ⟨blanks, hblanks, heq⟩ := splitLines_merge prior fun path hpath => (h path hpath).isLine
  have hblank : exportLine importPath ∉ blanks := fun hmem =>
    exportLine_ne_empty importPath (hblanks _ hmem)
  have hnew : exportLine importPath ∈ newLines prior importPaths ↔
      exportLine importPath ∈ freshExports prior importPaths := by
    by_cases hhelper : HasHelper prior
    · rw [newLines_of_hasHelper hhelper]
    · have hempty : exportLine importPath ∉
          (if (freshExports prior importPaths).isEmpty then [] else [""]) := by
        split
        · simp
        · simpa using exportLine_ne_empty importPath
      rw [newLines_of_not_hasHelper hhelper h, List.mem_append, List.mem_append]
      simp only [hempty, exportLine_notMem_helperLines, or_false]
  have hfresh : exportLine importPath ∈ freshExports prior importPaths ↔
      exportLine importPath ∈ importPaths.map exportLine ∧ exportLine importPath ∉ splitLines prior :=
    mem_freshLines
  rw [heq, List.mem_append, List.mem_append, List.mem_append, hnew, hfresh]
  by_cases hprior : exportLine importPath ∈ splitLines prior <;>
    simp only [hprior, hblank, true_or, false_or, not_false_eq_true, and_true]

/-- What a merge of further paths will find new after a merge of the first ones. -/
theorem freshExports_append (prior : String) {first : List String}
    (h : ∀ path ∈ first, IsImportable path) (second : List String) :
    freshExports prior (first ++ second) =
      freshExports prior first ++ freshExports (merge prior first) second := by
  rw [freshExports, List.map_append, freshLines_append]
  refine congrArg (freshExports prior first ++ ·) (freshLines_congr fun line hline => ?_)
  obtain ⟨path, -, rfl⟩ := List.mem_map.1 hline
  exact (exportLine_mem_splitLines_merge prior h path).symm

/-- Merges into a text that has the helper append export lines only. -/
theorem splitLines_foldl_merge {text : String} {batches : List (List String)}
    (h : ∀ path ∈ batches.flatten, IsImportable path) (hhelper : HasHelper text) :
    ∃ appended, splitLines (batches.foldl merge text) = splitLines text ++ appended ∧
      written appended = freshExports text batches.flatten := by
  induction batches generalizing text with
  | nil => exact ⟨[], by simp, rfl⟩
  | cons batch batches ih =>
    have hbatch : ∀ path ∈ batch, IsImportable path := fun path hpath => h path (by simp [hpath])
    have hrest : ∀ path ∈ batches.flatten, IsImportable path := fun path hpath =>
      h path (List.mem_append_right batch hpath)
    obtain ⟨blanks, hblanks, hmerge⟩ := splitLines_merge text fun path hpath => (hbatch path hpath).isLine
    obtain ⟨appended, hlines, hwritten⟩ :=
      ih hrest (hasHelper_merge text fun path hpath => (hbatch path hpath).isLine)
    refine ⟨blanks ++ newLines text batch ++ appended, ?_, ?_⟩
    · rw [List.foldl_cons, hlines, hmerge, List.append_assoc, List.append_assoc, List.append_assoc]
    · rw [List.flatten_cons, freshExports_append text hbatch, written_append, written_append,
        written_eq_nil hblanks, written_newLines text hbatch, if_pos hhelper, hwritten, List.append_nil,
        List.nil_append]

theorem foldl_merge_eq_append (text : String) (batches : List (List String)) :
    ∃ added, batches.foldl merge text = text ++ added := by
  induction batches generalizing text with
  | nil => exact ⟨"", by rw [String.append_empty]; rfl⟩
  | cons batch batches ih =>
    obtain ⟨added, -, hadded⟩ := merge_eq_append text batch
    obtain ⟨more, hmore⟩ := ih (merge text batch)
    exact ⟨added ++ more, by rw [List.foldl_cons, hmore, hadded, String.append_assoc]⟩

/-- A history of merges keeps the text and its lines in front. Behind them, blank lines apart, stand the
exports of the first batch that the text did not have, then the helper if no line of the text declares
it, then the exports of the later batches that are still new: each line once, in the order in which the
paths first occur in the history. -/
theorem foldl_merge_lines (prior : String) (first : List String) (later : List (List String))
    (h : ∀ path ∈ first ++ later.flatten, IsImportable path) :
    let text := (first :: later).foldl merge prior
    (∃ added, text = prior ++ added) ∧
      ∃ appended laterExports,
        splitLines text = splitLines prior ++ appended ∧
        exportsBeyond prior (first ++ later.flatten) = exportsBeyond prior first ++ laterExports ∧
        written appended = exportsBeyond prior first ++
          (if (splitLines prior).any declaresHelper then [] else helperLines) ++ laterExports ∧
        (written appended).Nodup := by
  have hfirst : ∀ path ∈ first, IsImportable path := fun path hpath => h path (by simp [hpath])
  have hlater : ∀ path ∈ later.flatten, IsImportable path := fun path hpath =>
    h path (List.mem_append_right first hpath)
  obtain ⟨blanks, hblanks, hmerge⟩ := splitLines_merge prior fun path hpath => (hfirst path hpath).isLine
  obtain ⟨appended, hlines, hwritten⟩ :=
    splitLines_foldl_merge hlater (hasHelper_merge prior fun path hpath => (hfirst path hpath).isLine)
  have hsplit := freshExports_append prior hfirst later.flatten
  have hall : written (blanks ++ newLines prior first ++ appended) =
      freshExports prior first ++ (if HasHelper prior then [] else helperLines) ++
        freshExports (merge prior first) later.flatten := by
    rw [written_append, written_append, written_eq_nil hblanks, written_newLines prior hfirst, hwritten,
      List.nil_append]
  refine ⟨foldl_merge_eq_append prior (first :: later), blanks ++ newLines prior first ++ appended,
    freshExports (merge prior first) later.flatten, ?_, ?_, ?_, ?_⟩
  · rw [List.foldl_cons, hlines, hmerge, List.append_assoc, List.append_assoc, List.append_assoc]
  · rw [← freshExports_eq, ← freshExports_eq, hsplit]
  · rw [hall, freshExports_eq]
    rfl
  · have hexports : (freshExports prior first ++
        freshExports (merge prior first) later.flatten).Nodup := by
      rw [← hsplit]
      exact nodup_freshLines _ _
    have hnotHelper (line : String) (hline : line ∈ freshExports prior first ++
        freshExports (merge prior first) later.flatten) : line ∉ helperLines := by
      rw [← hsplit] at hline
      obtain ⟨path, -, rfl⟩ := List.mem_map.1 (mem_freshLines.1 hline).1
      exact exportLine_notMem_helperLines path
    rw [hall]
    by_cases hhelper : HasHelper prior
    · rw [if_pos hhelper, List.append_nil]
      exact hexports
    · rw [if_neg hhelper, List.append_assoc]
      refine (List.perm_append_left_iff _ |>.2 List.perm_append_comm).nodup_iff.2 ?_
      rw [← List.append_assoc, List.nodup_append]
      refine ⟨hexports, by decide, ?_⟩
      intro line hline helper hhelper heq
      exact hnotHelper line hline (heq ▸ hhelper)

/-- A text that ends in a lone carriage return, and two batches that overlap. -/
theorem foldl_merge_lines_overlap :
    (∀ path ∈ ["./a"] ++ [["./a", "./b"]].flatten, IsImportable path) ∧
      ∃ appended,
        splitLines ([["./a"], ["./a", "./b"]].foldl merge "// kept\r") = ["// kept"] ++ appended ∧
        written appended = exportLine "./a" :: (helperLines ++ [exportLine "./b"]) := by
  have hpaths : ∀ path ∈ ["./a"] ++ [["./a", "./b"]].flatten, IsImportable path := by decide
  obtain ⟨-, appended, laterExports, hlines, hexports, hwritten, -⟩ :=
    foldl_merge_lines "// kept\r" ["./a"] [["./a", "./b"]] hpaths
  have hprior : splitLines "// kept\r" = ["// kept"] := by decide
  have hall : exportsBeyond "// kept\r" (["./a"] ++ [["./a", "./b"]].flatten) =
      [exportLine "./a"] ++ [exportLine "./b"] := by decide
  have hfirst : exportsBeyond "// kept\r" ["./a"] = [exportLine "./a"] := by decide
  rw [hall, hfirst, List.append_cancel_left_eq] at hexports
  rw [hprior] at hlines
  refine ⟨hpaths, appended, hlines, ?_⟩
  rw [hwritten, hprior, hfirst, ← hexports]
  decide

end FfiBindings.Index
