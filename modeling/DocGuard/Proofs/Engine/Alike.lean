import DocGuard.Engine.Program

/-! Programs that the world cannot tell apart: they ask the same, whatever the answers are, and differ
in what they end with only. -/
namespace DocGuard.Program
variable {α β γ δ : Type} {related : α → β → Prop} {also : γ → δ → Prop}

/-- Two programs that ask the same questions, whatever the answers are, and end with values that are
related. -/
inductive Alike (related : α → β → Prop) : Program α → Program β → Prop where
  | done {a : α} {b : β} : related a b → Alike related (.done a) (.done b)
  | ask (q : Question) {first : q.Answer → Program α} {second : q.Answer → Program β} :
      (∀ answer, Alike related (first answer) (second answer)) →
      Alike related (.ask q first) (.ask q second)

namespace Alike

theorem refl (program : Program α) : Alike Eq program program := by
  induction program with
  | done value => exact .done rfl
  | ask q next ih => exact .ask q ih

theorem bind {first : Program α} {second : Program β} {next : α → Program γ} {after : β → Program δ}
    (h : Alike related first second) (g : ∀ a b, related a b → Alike also (next a) (after b)) :
    Alike also (first.bind next) (second.bind after) := by
  induction h with
  | done both => exact g _ _ both
  | ask q _ ih => exact .ask q ih

theorem mono {more : α → β → Prop} {first : Program α} {second : Program β}
    (h : Alike related first second) (le : ∀ a b, related a b → more a b) :
    Alike more first second := by
  induction h with
  | done both => exact .done (le _ _ both)
  | ask q _ ih => exact .ask q ih

theorem behind (first : Program α) {next : α → Program γ} {after : α → Program δ}
    (g : ∀ a, Alike also (next a) (after a)) :
    Alike also (first.bind next) (first.bind after) := by
  refine (refl first).bind ?_
  rintro a _ rfl
  exact g a

end Alike
end DocGuard.Program
