import DocGuard.Proofs.Request.CommitIntegrity

/-! A commit that tells that it failed, and what stood at its path before. The library looks for a
file after the commit only, so that a file of earlier days is taken for one that the commit left:
with it the failure is fatal, and without it ordinary. -/
namespace DocGuard

/-- At a path the same stands in both trees: nothing, a directory, or a file of the same bytes. -/
structure FileTree.SameAt (t u : FileTree) (path : String) : Prop where
  pathExists : u.pathExists path = t.pathExists path
  read : u.read path = t.read path

namespace Schedule
variable {r : Request} {o : RunOptions} {host : Host} {before rest : List Event}
  {d : DocumentHandle} {p : String}

section Run
variable {σ : Type} {w : World σ} {state : σ} {files : FileTree}

private theorem execute_refusedCommit
    (whole : (w.run state files (r.execute o host)).events =
      before ++ .replied (.commit d p) (.succeeded false) :: rest) :
    (w.run state files (r.execute o host)).value.1 =
      if (w.after state files (before ++ [.replied (.commit d p) (.succeeded false)])).2.pathExists p
      then .error (.commitIntegrity p)
      else .value ⟨r.operation.kind, r.source, .failed EngineError.nothingWritten.message⟩ := by
  have follows : Follows r o _ _ (exchanges (w.run state files (r.execute o host)).events) _ :=
    follows_execute
  rw [whole, exchanges_append, exchanges_call] at follows
  rw [(run_execute w state files).1]
  rcases follows.failedCommit with ⟨looks, ended⟩ | ⟨looks, ended⟩
  · rw [found_of_run whole looks, ended]
    rfl
  · rw [found_of_run whole looks, ended]
    rfl

end Run
end Schedule

/-- Where a commit tells that it failed, and left what stood at its path as it was, the failure is
ordinary exactly if nothing stood there; it is fatal if something did, whoever put it there. -/
theorem World.execute_fails_of_untouched {σ : Type} (w : World σ) (state : σ) (files : FileTree)
    (r : Request) (o : RunOptions) (host : Host) {before rest : List Event} {d : DocumentHandle}
    {p : String} (whole : (w.run state files (r.execute o host)).events =
      before ++ .replied (.commit d p) (.succeeded false) :: rest)
    (untouched : (w.after state files before).2.SameAt
      (w.after state files (before ++ [.replied (.commit d p) (.succeeded false)])).2 p) :
    let run := w.run state files (r.execute o host)
    let earlier := (w.after state files before).2
    (run.value.1 = .value ⟨r.operation.kind, r.source,
        .failed "Commit failed; no output file was written"⟩ ↔ earlier.pathExists p = false) ∧
      (run.value.1 = .error (.commitIntegrity p) ↔ earlier.pathExists p = true) := by
  intro run earlier
  have ended : run.value.1 = _ := Schedule.execute_refusedCommit whole
  rw [untouched.pathExists] at ended
  cases stood : earlier.pathExists p with
  | true =>
    have fatal : run.value.1 = .error (.commitIntegrity p) := by rw [ended, if_pos stood]
    simp [fatal]
  | false =>
    have ordinary : run.value.1 = .value ⟨r.operation.kind, r.source,
        .failed EngineError.nothingWritten.message⟩ := by
      rw [ended, if_neg (ne_true_of_eq_false stood)]
    simp [ordinary, EngineError.message]

namespace World

private theorem obliging_after (protection : Option Policy) (written : Bool) (files : FileTree)
    (events : List Event) :
    ((obliging protection written).after () files events).2 = files := by
  induction events with
  | nil => rfl
  | cons e events ih =>
    obtain ⟨question, answer⟩ := e
    cases question <;> exact ih

private theorem obliging_commit {α : Type} {protection : Option Policy} {written : Bool}
    {files : FileTree}
    {program : Program α}
    (called : ((obliging protection written).run () files program).calls.any Call.isCommit = true) :
    ∃ before rest d p, ((obliging protection written).run () files program).events =
      before ++ .replied (.commit d p) (.succeeded written) :: rest := by
  obtain ⟨c, mem, commits⟩ := List.any_eq_true.1 called
  obtain ⟨⟨question, answer⟩, among, same⟩ := List.mem_filterMap.1 mem
  obtain ⟨before, rest, whole⟩ := List.append_of_mem among
  have told := (obliging protection written).answer_of_run () files program whole
  cases question <;> cases same
  cases c <;> cases commits
  cases told
  exact ⟨before, rest, _, _, whole⟩

/-- A commit that writes nothing, where nothing stands at its path. -/
theorem obliging_execute_untouched :
    let w := obliging (some { granted := ["EXPORT"] }) false
    let run := w.run () {} (((Request.unprotect "report.docx" "app").withToken "token").execute {} {})
    ∃ before rest d p, run.events = before ++ .replied (.commit d p) (.succeeded false) :: rest ∧
      (w.after () {} before).2.SameAt
        (w.after () {} (before ++ [.replied (.commit d p) (.succeeded false)])).2 p ∧
      run.value.1 =
        .value ⟨.unprotect, "report.docx", .failed "Commit failed; no output file was written"⟩ ∧
      (w.after () {} before).2.pathExists p = false := by
  intro w run
  obtain ⟨before, rest, d, p, whole⟩ :
      ∃ before rest d p, run.events = before ++ .replied (.commit d p) (.succeeded false) :: rest :=
    obliging_commit (by decide +kernel)
  have untouched : (w.after () {} before).2.SameAt
      (w.after () {} (before ++ [.replied (.commit d p) (.succeeded false)])).2 p := by
    simp only [w, obliging_after]
    exact ⟨rfl, rfl⟩
  have ended : run.value.1 =
      .value ⟨.unprotect, "report.docx", .failed "Commit failed; no output file was written"⟩ := by
    decide +kernel
  exact ⟨before, rest, d, p, whole, untouched, ended,
    (w.execute_fails_of_untouched () {} _ {} {} whole untouched).1.1 ended⟩

/-- A commit that writes nothing fails the execution where a file of earlier days stands at its path.
No collaborator reports an error of integrity, and the file is as it was. -/
theorem obliging_execute_stale :
    let w := obliging (some { granted := ["EXPORT"] }) false
    let files : FileTree :=
      { entries := [(["tmp"], .directory), (["tmp", "documents"], .directory),
          (["tmp", "documents", "report_modified.docx"], .file [])] }
    let run := w.run () files
      (((Request.unprotect "report.docx" "app").withToken "token").execute {} {})
    w.KeepsIntegrity ∧ run.value.1 = .error (.commitIntegrity "report_modified.docx") ∧
      ∃ before rest d, run.events =
          before ++ .replied (.commit d "report_modified.docx") (.succeeded false) :: rest ∧
        (w.after () files before).2.SameAt (w.after () files
          (before ++ [.replied (.commit d "report_modified.docx") (.succeeded false)])).2
          "report_modified.docx" := by
  intro w files run
  obtain ⟨before, rest, d, p, whole⟩ :
      ∃ before rest d p, run.events = before ++ .replied (.commit d p) (.succeeded false) :: rest :=
    obliging_commit (by decide +kernel)
  have fatal : run.value.1 = .error (.commitIntegrity "report_modified.docx") := by
    decide +kernel
  have ended : run.value.1 = _ := Schedule.execute_refusedCommit whole
  rw [fatal] at ended
  split at ended <;> cases ended
  refine ⟨obliging_keepsIntegrity _ _, fatal, before, rest, d, whole, ?_⟩
  simp only [w, obliging_after]
  exact ⟨rfl, rfl⟩

end World
end DocGuard
