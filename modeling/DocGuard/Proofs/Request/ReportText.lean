import DocGuard.Proofs.Json.Decoding
import DocGuard.Request.Report

/-! The text of a report. Whatever the texts in a report are, a reader of its JSON text gets them back
as they are, with no member more or less. -/
namespace DocGuard.Report
open Json
variable {r : Report} {members : List (String × Value)}

/-- The members that tell a report. An inspection tells the path of its source, with the flags or the
error; all else tells the path that was written and the error, of which one at least is empty. -/
inductive Tells : Report → List (String × Value) → Prop where
  | inspected (kind : OperationKind) (source : String) (status : Status) :
      Tells ⟨kind, source, .inspected status⟩ [
        ("labeled", .bool status.isLabeled),
        ("path", .string source),
        ("protected", .bool status.isProtected),
        ("protected_objects", .bool status.hasProtectedObjects),
        ("status", .bool true)]
  | notInspected (source message : String) :
      Tells ⟨.inspect, source, .failed message⟩
        [("error", .string message), ("path", .string source), ("status", .bool false)]
  | committed (kind : OperationKind) (source path : String) :
      Tells ⟨kind, source, .committed path⟩
        [("error", .string ""), ("path", .string path), ("status", .bool true)]
  | noChange (kind : OperationKind) (source reason : String) :
      Tells ⟨kind, source, .noChange reason⟩
        [("error", .string reason), ("path", .string ""), ("status", .bool false)]
  | failed {kind : OperationKind} (source message : String) : kind ≠ .inspect →
      Tells ⟨kind, source, .failed message⟩
        [("error", .string message), ("path", .string ""), ("status", .bool false)]

theorem exists_tells (r : Report) : ∃ members, r.Tells members := by
  obtain ⟨kind, source, status | path | reason | message⟩ := r
  · exact ⟨_, .inspected kind source status⟩
  · exact ⟨_, .committed kind source path⟩
  · exact ⟨_, .noChange kind source reason⟩
  · by_cases inspects : kind = .inspect
    · subst inspects
      exact ⟨_, .notInspected source message⟩
    · exact ⟨_, .failed source message inspects⟩

namespace Tells

theorem payload (h : r.Tells members) : r.payload = .object members := by
  cases h with
  | @failed kind source message other =>
    cases kind with
    | inspect => exact absurd rfl other
    | unprotect | protect | setLabel | deleteLabel => rfl
  | inspected | notInspected | committed | noChange => rfl

theorem filled (h : r.Tells members) : members ≠ [] := by
  cases h <;> exact nofun

theorem ascending (h : r.Tells members) : (members.map Prod.fst).Pairwise (· < ·) := by
  cases h <;> simp only [List.map_cons, List.map_nil] <;> decide

private theorem wellSpelled (h : r.Tells members) : ∀ member ∈ members, member.2.WellSpelled := by
  cases h <;> simp [Value.WellSpelled.bool, Value.WellSpelled.string]

theorem status (h : r.Tells members) : ("status", .bool r.succeeded) ∈ members := by
  cases h <;> simp [succeeded]

theorem readsAs (h : r.Tells members) : ReadsAs r.json members := by
  rw [json, h.payload]
  refine readsAs_render h.filled h.wellSpelled (h.ascending.imp fun less => ?_)
  rintro rfl
  exact String.lt_irrefl _ less

end Tells

/-- There is a text for every report, and it reads as the members that tell the report. Its status is
whether the operation did what it is for. -/
theorem json_readsAs (r : Report) :
    ∃ members, r.Tells members ∧ ReadsAs r.json members ∧
      ("status", .bool r.succeeded) ∈ members := by
  obtain ⟨members, tells⟩ := r.exists_tells
  exact ⟨members, tells, tells.readsAs, tells.status⟩

end DocGuard.Report
