import FfiBindings.Proofs.Generation.Work

/-!
The last module of a run whose source holds a known text. What its source comes to is told by what is found in the
text (`extract_of_yields`), so the work on it is that on the modules before it, and then that of writing its binding
(`work_append`). The text need not be there when the run begins: a log file that is a source holds what the run has
told of the other modules.
-/

set_option autoImplicit false
set_option relaxedAutoImplicit false

namespace FfiBindings

/-- What is found in a text without a fault. The text is given by its characters, so that the tokens can be evaluated
without decoding it. -/
def Rust.Yields (text : String) (findings : List Finding) : Prop :=
  ∃ chars, text = .ofList chars ∧
    (piecesFrom 1 (Text.unifyNewlines chars)).map (fun pieces => Survey.ofTokens (pieces.filterMap Piece.token?)) =
      .ok ⟨findings, none⟩

theorem Rust.Yields.survey_eq {text : String} {findings : List Finding} (h : Yields text findings) :
    Language.rust.survey (Text.withUnifiedNewlines text) = ⟨findings, none⟩ := by
  obtain ⟨chars, rfl, hfindings⟩ := h
  rw [Language.survey, Survey.ofSource, tokens, Text.withUnifiedNewlines, String.toList_ofList, String.toList_ofList]
  cases hpieces : piecesFrom 1 (Text.unifyNewlines chars) with
  | error error =>
    rw [hpieces] at hfindings
    exact nomatch hfindings
  | ok pieces =>
    rw [hpieces] at hfindings
    exact Except.ok.inj hfindings

namespace Generation.Task

variable {task : Task} {source : SourceModule} {sources : List SourceModule} {session : Session} {report : Report}
  {language : Language} {bytes : ByteArray} {text : String} {findings : List Rust.Finding}

/-- What findings without a fault come to. -/
def sortFindings (task : Task) (source : SourceModule) (findings : List Rust.Finding) :
    List Message × Except Outcome (List Rust.ExportedFunction) :=
  (findings.filterMap skipMessage,
    match findings.filterMap Rust.Finding.function? with
    | [] => .error (task.note source .warning "no exported functions found")
    | functions => .ok functions)

/-- What is left to do for a module when its source has been read. -/
def finishRead (task : Task) (source : SourceModule) (session : Session)
    (found : List Message × Except Outcome (List Rust.ExportedFunction)) : Session × Outcome :=
  let session := session.noteAll found.1
  match found.2.bind (task.layOut source session.disk) with
  | .error outcome => (session, outcome)
  | .ok layout => task.write source layout session

theorem extract_of_yields (task : Task) (source : SourceModule) (h : Rust.Yields text findings) :
    task.extract source .rust text.toUTF8 = task.sortFindings source findings := by
  rw [extract, Text.Utf8.decode_toUTF8]
  dsimp only
  rw [h.survey_eq, sortFindings]
  simp only [Rust.Survey.functions]
  cases findings.filterMap Rust.Finding.function? <;> rfl

theorem finish_eq_finishRead (hprepare : (task.prepare source session).2 = .ok language)
    (hread : task.readSource source (task.prepare source session).1.disk = .ok bytes) :
    task.finish source session =
      task.finishRead source (task.prepare source session).1 (task.extract source language bytes) := by
  rcases hprepared : task.prepare source session with ⟨ready, prepared⟩
  rw [hprepared] at hprepare hread
  obtain rfl : prepared = .ok language := hprepare
  simp only [finish, hprepared, read, hread, finishRead]
  rcases (task.extract source language bytes).2.bind
    (task.layOut source (ready.noteAll (task.extract source language bytes).1).disk) with outcome | layout <;> rfl

theorem workInOrder_append (task : Task) (front rest : List SourceModule) (session : Session) (report : Report) :
    task.workInOrder (front ++ rest) session report =
      match task.workInOrder front session report with
      | (halted, .error halt) => (halted, .error halt)
      | (next, .ok taken) => task.workInOrder rest next taken := by
  induction front generalizing session report with
  | nil => rfl
  | cons source front ih =>
    simp only [List.cons_append, workInOrder]
    rcases task.takeUp source (task.finish source session).2 (task.finish source session).1 report with
      ⟨next, halt | taken⟩
    · rfl
    · exact ih next taken

theorem workInOrder_singleton (task : Task) (source : SourceModule) (session : Session) (report : Report) :
    task.workInOrder [source] session report =
      task.takeUp source (task.finish source session).2 (task.finish source session).1 report := by
  simp only [workInOrder]
  rcases task.takeUp source (task.finish source session).2 (task.finish source session).1 report with
    ⟨next, halt | taken⟩ <;> rfl

/-- The source of a module that is prepared holds the text. Bytes are compared in lists, which can be evaluated. -/
def Finds (task : Task) (source : SourceModule) (session : Session) (text : String) : Prop :=
  (task.prepare source session).2 = .ok .rust ∧
    (task.readSource source (task.prepare source session).1.disk).map (fun bytes => bytes.data.toList) =
      .ok text.toUTF8.data.toList

instance (task : Task) (source : SourceModule) (session : Session) (text : String) :
    Decidable (task.Finds source session text) :=
  inferInstanceAs (Decidable (_ ∧ _))

theorem Finds.finish_eq (h : task.Finds source session text) (hyields : Rust.Yields text findings) :
    task.finish source session =
      task.finishRead source (task.prepare source session).1 (task.sortFindings source findings) := by
  obtain ⟨hprepare, hread⟩ := h
  rw [← task.extract_of_yields source hyields]
  exact finish_eq_finishRead hprepare (Disk.eq_ok_of_toList hread)

/-- A run with one worker whose last module has a known text. -/
theorem work_append {workers : Int} (hworkers : workers ≤ 1) (events : List Event) (hyields : Rust.Yields text findings)
    (hfinds : task.Finds source (task.workInOrder sources session report).1 text) :
    task.work workers events (sources ++ [source]) session report =
      match task.workInOrder sources session report with
      | (halted, .error halt) => (halted, .error halt)
      | (next, .ok taken) =>
        let finished :=
          task.finishRead source (task.prepare source next).1 (task.sortFindings source findings)
        task.takeUp source finished.2 finished.1 taken := by
  have hfinish := hfinds.finish_eq hyields
  rw [work, if_pos (by simp [hworkers]), workInOrder_append]
  rcases hfront : task.workInOrder sources session report with ⟨next, halt | taken⟩
  · rfl
  · rw [hfront] at hfinish
    dsimp only
    rw [workInOrder_singleton, hfinish]

end Generation.Task

end FfiBindings
