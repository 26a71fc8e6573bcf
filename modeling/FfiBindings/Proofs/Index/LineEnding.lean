import FfiBindings.Proofs.Index.Merge

/-!
Line ends over a history of merges. The end of a line is chosen anew for every merge, by whether a carriage return and a
line feed stand together anywhere in the text, and it is written in three places: between the lines that are appended,
behind a last line that is still open and as the empty line before the block. So two properties of a text are kept by
every merge of paths that hold neither character: that its lines end in both, without a line feed by itself (`IsCrLf`),
and that it holds no carriage return at all. `foldl_merge_endings` has both for every text that a history comes to.
-/

set_option autoImplicit false
set_option relaxedAutoImplicit false

namespace FfiBindings.Index

open Text

/-! ### Line feeds after carriage returns -/

/-- Every line feed comes right after a carriage return. -/
def FeedsReturned (text : List Char) : Prop :=
  ∀ front rest, text = front ++ '\n' :: rest → front.getLast? = some '\r'

/-- A carriage return and a line feed stand together somewhere, and no line feed stands without one. -/
structure IsCrLf (text : String) : Prop where
  somewhere : ['\r', '\n'] <:+: text.toList
  everywhere : FeedsReturned text.toList

theorem feedsReturned_of_notMem {text : List Char} (h : '\n' ∉ text) : FeedsReturned text := by
  rintro front rest rfl
  exact absurd (List.mem_append_right front List.mem_cons_self) h

theorem FeedsReturned.append {first second : List Char} (hfirst : FeedsReturned first)
    (hsecond : FeedsReturned second) : FeedsReturned (first ++ second) := by
  intro front rest h
  rcases List.append_eq_append_iff.1 h with ⟨more, rfl, hmore⟩ | ⟨more, rfl, hmore⟩
  · rw [List.getLast?_append, hsecond more rest hmore, Option.some_or]
  · cases more with
    | nil =>
      have hnil := hsecond [] rest hmore.symm
      exact absurd hnil (by simp)
    | cons c more =>
      obtain ⟨rfl, -⟩ := List.cons.inj hmore
      exact hfirst front more rfl

theorem feedsReturned_crLf : FeedsReturned ['\r', '\n'] := by
  intro front rest h
  match front, h with
  | [c], h =>
    obtain ⟨rfl, -⟩ := List.cons.inj h
    rfl
  | _ :: _ :: front, h =>
    have hrest := (List.cons.inj (List.cons.inj h).2).2
    exact absurd hrest (by simp)

/-! ### One merge -/

theorem hasCrLf_iff (text : List Char) : hasCrLf text = true ↔ ['\r', '\n'] <:+: text := by
  fun_induction hasCrLf text with
  | case1 rest => exact iff_of_true rfl ⟨[], rest, rfl⟩
  | case2 c rest hpair ih =>
    rw [ih, List.infix_cons_iff]
    refine ⟨.inr, ?_⟩
    rintro (⟨tail, htail⟩ | hlater)
    · obtain ⟨rfl, rfl⟩ := List.cons.inj htail
      exact absurd rfl (hpair tail rfl)
    · exact hlater
  | case3 => exact iff_of_false (by simp) (by simp)

variable {prior : String} {importPaths : List String}

/-- What holds of a text, of its line end and of the new lines, and of any two texts in a row of which it holds, holds
of a merge. -/
theorem merge_of_append {motive : List Char → Prop} (hnil : motive [])
    (happend : ∀ first second, motive first → motive second → motive (first ++ second)) (hprior : motive prior.toList)
    (hending : motive (lineEnd prior).toList) (hlines : ∀ line ∈ newLines prior importPaths, motive line.toList) :
    motive (merge prior importPaths).toList := by
  by_cases hnew : newLines prior importPaths = []
  · rwa [merge_eq_self hnew]
  have hwritten {lines : List String} (h : ∀ line ∈ lines, motive line.toList) :
      motive (lines.flatMap fun line => line.toList ++ (lineEnd prior).toList) := by
    induction lines with
    | nil => exact hnil
    | cons line lines ih =>
      obtain ⟨hline, hlater⟩ := List.forall_mem_cons.1 h
      exact happend _ _ (happend _ _ hline hending) (ih hlater)
  have hblock : motive (block prior importPaths).toList := by
    rw [block, toList_intercalate_append hnew]
    exact hwritten hlines
  by_cases hempty : prior = ""
  · subst hempty
    rwa [merge_empty hnew]
  · obtain ⟨closing, hclosing, hmerge⟩ := merge_eq_append_block hnew hempty
    have hclosed : motive closing.toList := by
      rcases hclosing with rfl | rfl
      · exact hnil
      · exact hending
    rw [hmerge, String.toList_append, String.toList_append, String.toList_append]
    exact happend _ _ (happend _ _ (happend _ _ hprior hclosed) hending) hblock

/-- No new line holds a line boundary that no path holds. -/
theorem notMem_newLines {c : Char} (hc : isLineBoundary c = true) (h : ∀ path ∈ importPaths, c ∉ path.toList) :
    ∀ line ∈ newLines prior importPaths, c ∉ line.toList := by
  have hnone {line : List Char} (hline : IsLine line) : c ∉ line := fun hmem => by
    rw [hline c hmem] at hc
    exact absurd hc (by simp)
  intro line hmem
  rcases mem_newLines_cases hmem with hfresh | hline
  · obtain ⟨path, hpath, rfl⟩ := List.mem_map.1 (mem_freshLines.1 hfresh).1
    rw [toList_exportLine, List.mem_append, List.mem_append, not_or, not_or]
    exact ⟨hnone (by decide), h path hpath, hnone (by decide)⟩
  · exact hnone hline

theorem IsCrLf.merge (h : IsCrLf prior) (hpaths : ∀ path ∈ importPaths, '\n' ∉ path.toList) :
    IsCrLf (merge prior importPaths) where
  somewhere := by
    obtain ⟨added, -, hadded⟩ := merge_eq_append prior importPaths
    rw [hadded, String.toList_append]
    exact h.somewhere.trans (List.prefix_append _ _).isInfix
  everywhere := by
    refine merge_of_append (feedsReturned_of_notMem List.not_mem_nil) (fun _ _ => .append) h.everywhere ?_ ?_
    · rw [lineEnd, if_pos ((hasCrLf_iff _).2 h.somewhere)]
      exact feedsReturned_crLf
    · exact fun line hline => feedsReturned_of_notMem (notMem_newLines isLineBoundary_lineFeed hpaths line hline)

theorem notMem_merge (h : '\r' ∉ prior.toList) (hpaths : ∀ path ∈ importPaths, '\r' ∉ path.toList) :
    '\r' ∉ (merge prior importPaths).toList := by
  refine merge_of_append (motive := fun text => '\r' ∉ text) List.not_mem_nil ?_ h ?_
    (notMem_newLines isLineBoundary_carriageReturn hpaths)
  · intro first second hfirst hsecond hmem
    exact (List.mem_append.1 hmem).elim hfirst hsecond
  · have hpair : hasCrLf prior.toList = false := by
      rw [Bool.eq_false_iff, Ne, hasCrLf_iff]
      exact fun hinside => h (hinside.subset List.mem_cons_self)
    rw [lineEnd, hpair]
    decide

/-! ### Any number of merges -/

/-- Line ends stay as they are over any history of merges, where no path holds a carriage return or a line feed. If
all lines of the text end in both, so do those of every text that the history comes to; if the text holds no carriage
return, no such text does. -/
theorem foldl_merge_endings (prior : String) (batches : List (List String))
    (h : ∀ path ∈ batches.flatten, '\r' ∉ path.toList ∧ '\n' ∉ path.toList) :
    (IsCrLf prior → ∀ earlier, earlier <+: batches → IsCrLf (earlier.foldl merge prior)) ∧
      ('\r' ∉ prior.toList → ∀ earlier, earlier <+: batches → '\r' ∉ (earlier.foldl merge prior).toList) := by
  have hbatch {earlier : List (List String)} (hearlier : earlier <+: batches) {batch : List String}
      (hmem : batch ∈ earlier) {path : String} (hpath : path ∈ batch) : '\r' ∉ path.toList ∧ '\n' ∉ path.toList :=
    h path (List.mem_flatten_of_mem (hearlier.subset hmem) hpath)
  constructor
  · intro hprior earlier hearlier
    refine List.foldlRecOn earlier merge hprior fun text htext batch hmem => ?_
    exact htext.merge fun path hpath => (hbatch hearlier hmem hpath).2
  · intro hprior earlier hearlier
    refine List.foldlRecOn (motive := fun text => '\r' ∉ text.toList) earlier merge hprior
      fun text htext batch hmem => ?_
    exact notMem_merge htext fun path hpath => (hbatch hearlier hmem hpath).1

/-- A text whose last line is open but for a carriage return, and two batches that both append to it. -/
theorem foldl_merge_endings_open :
    IsCrLf "// hand\r\nexport const V = 1;\r" ∧
      IsCrLf ([["./mod/add"], ["./mod/add", "./mod/sub"]].foldl merge "// hand\r\nexport const V = 1;\r") := by
  have hprior : IsCrLf "// hand\r\nexport const V = 1;\r" := by
    refine ⟨⟨"// hand".toList, "export const V = 1;\r".toList, rfl⟩, ?_⟩
    have hfirst : FeedsReturned ("// hand".toList ++ ['\r', '\n']) :=
      (feedsReturned_of_notMem (by decide)).append feedsReturned_crLf
    have hlast : FeedsReturned "export const V = 1;\r".toList := feedsReturned_of_notMem (by decide)
    exact hfirst.append hlast
  exact ⟨hprior, (foldl_merge_endings _ _ (by decide)).1 hprior _ List.prefix_rfl⟩

end FfiBindings.Index
