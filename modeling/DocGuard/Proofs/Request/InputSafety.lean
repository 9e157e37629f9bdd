import DocGuard.Proofs.Document.OutputPath
import DocGuard.Proofs.Request.CommitProtocol

/-! The documents that a request names and the path that it writes to. Where the engine proposes the
name of the source, the output path is that name with the mark in it, and so never the source. The
path of the reference is not looked at: a reference with that very name is written over. -/
namespace DocGuard
open Program

namespace Schedule
variable {r : Request} {o : RunOptions} {k : Known} {host : Host} {xs : List Event} {e : Event}
  {d : DocumentHandle} {p : String} {exit : Exit Outcome}

private theorem Follows.commit_marks (h : Follows r o k (ofRequest r host) xs exit)
    (proposed : ∀ d name, .replied (.outputFileName d) name ∈ xs → name = r.source)
    (mem : e ∈ xs) (called : e.call? = some (.commit d p)) : OutputPath.Marks r.source p := by
  obtain ⟨before, rest, rfl⟩ := List.append_of_mem mem
  obtain ⟨first, second, name, change, reply, rfl, derived, -⟩ := h.prepared called
  obtain rfl : name = r.source := proposed d name (by simp)
  exact OutputPath.derive_eq_ok_iff.1 derived

end Schedule

/-- No run writes over its source, and a protection writes over its reference exactly if the reference
has the name of the source with the mark before the extension. -/
theorem Request.run_spares_inputs {r : Request} {o : RunOptions} {host after : Host}
    {events : List Event} {exit : Exit Outcome}
    (path : Path (r.run o host) events (exit, after))
    (proposed : ∀ d name, .replied (.outputFileName d) name ∈ events → name = r.source) :
    ∀ e ∈ events, ∀ d p, e.call? = some (.commit d p) → p ≠ r.source ∧
      ∀ reference, r.operation = .protect → r.reference = some reference →
        (p = reference ↔ OutputPath.Marks r.source reference) := by
  intro e mem d p called
  have follows := Schedule.keeps_run events exit after path
  have marks : OutputPath.Marks r.source p :=
    follows.commit_marks (fun d name told => proposed d name (mem_of_mem_exchanges told))
      (mem_exchanges_of_call mem called) called
  refine ⟨marks.ne_name, fun reference _ _ => ?_⟩
  constructor
  · rintro rfl
    exact marks
  · intro other
    have same := (OutputPath.derive_eq_ok_iff.2 marks).symm.trans (OutputPath.derive_eq_ok_iff.2 other)
    exact Except.ok.inj same

namespace World
variable {protection : Option Policy} {written : Bool} {α : Type} {program : Program α}

private theorem obliging_proposes {d : DocumentHandle} {name : String}
    (mem : .replied (.outputFileName d) name ∈
      ((obliging protection written).run () {} program).events) : name = "report.docx" := by
  obtain ⟨state, files, told⟩ := (obliging protection written).reply_of_run () {} program mem
  cases told
  rfl

private theorem committed_of_run {σ : Type} {w : World σ} {state : σ} {files : FileTree}
    {r : Request}
    {o : RunOptions} {host : Host} {p : String}
    (ended : (w.run state files (r.run o host)).value.1 = .value (.committed p)) :
    ∃ d, .replied (.commit d p) (.succeeded true) ∈ (w.run state files (r.run o host)).events := by
  have follows := Schedule.keeps_run _ _ _ (w.path_run state files (r.run o host))
  rw [ended] at follows
  obtain ⟨before, rest, d, whole⟩ := follows.committed
  have mem : .replied (.commit d p) (.succeeded true) ∈
      exchanges (w.run state files (r.run o host)).events := by simp [whole]
  exact ⟨d, mem_of_mem_exchanges mem⟩

/-- A protection after the example of another document leaves both documents alone. -/
theorem obliging_spares_inputs :
    let r := (Request.protect "report.docx" "template.docx" "app").withToken "token"
    let run := (obliging (some { granted := ["EXPORT"] }) true).run () {} (r.run {} {})
    (∀ d name, .replied (.outputFileName d) name ∈ run.events → name = r.source) ∧
      ∃ d, .replied (.commit d "report_modified.docx") (.succeeded true) ∈ run.events ∧
        "report_modified.docx" ≠ r.source ∧ ¬ OutputPath.Marks r.source "template.docx" := by
  intro r run
  have proposed : ∀ d name, .replied (.outputFileName d) name ∈ run.events → name = r.source :=
    fun d name mem => obliging_proposes mem
  have ended : run.value.1 = .value (.committed "report_modified.docx") := by decide +kernel
  obtain ⟨d, mem⟩ := committed_of_run ended
  obtain ⟨source, reference⟩ :=
    Request.run_spares_inputs (path_run ..) proposed _ mem d "report_modified.docx" rfl
  refine ⟨proposed, d, mem, source, fun marks => ?_⟩
  exact absurd ((reference "template.docx" rfl rfl).2 marks) (by decide)

/-- A protection after the example of a document that has the marked name of the source writes over
this document. -/
theorem obliging_writes_over_reference :
    let r := (Request.protect "report.docx" "report_modified.docx" "app").withToken "token"
    let run := (obliging (some { granted := ["EXPORT"] }) true).run () {} (r.run {} {})
    r.validate = .ok () ∧ r.operation.isMutating = true ∧
      (∀ d name, .replied (.outputFileName d) name ∈ run.events → name = r.source) ∧
      ∃ d p, .replied (.commit d p) (.succeeded true) ∈ run.events ∧ r.reference = some p := by
  intro r run
  have ended : run.value.1 = .value (.committed "report_modified.docx") := by decide +kernel
  obtain ⟨d, mem⟩ := committed_of_run ended
  exact ⟨by decide +kernel, rfl, fun d name told => obliging_proposes told, d, _, mem, rfl⟩

end World
end DocGuard
