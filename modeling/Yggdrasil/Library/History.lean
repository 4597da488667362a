import Mathlib.Data.List.Basic

/-! Histories of events: what an event demands of the events before it. -/

namespace Yggdrasil.History

variable {E : Type} {P : E → List E → Prop} {log : List E} {e : E}

/-- Every event found before it what it demands. -/
def Guarded (P : E → List E → Prop) (log : List E) : Prop :=
  ∀ pre e post, log = pre ++ e :: post → P e pre

theorem guarded_nil : Guarded P [] := by
  intro pre e post h
  exact absurd h.symm (by simp)

theorem guarded_append : Guarded P (log ++ [e]) ↔ Guarded P log ∧ P e log := by
  constructor
  · intro h
    refine ⟨fun pre e' post he => h pre e' (post ++ [e]) (by simp [he]), h log e [] rfl⟩
  · rintro ⟨h, he⟩ pre e' post hlog
    rcases List.eq_nil_or_concat post with rfl | ⟨post, last, rfl⟩
    · obtain ⟨rfl, hlast⟩ := List.append_inj' hlog rfl
      cases hlast
      exact he
    · rw [List.concat_eq_append, ← List.cons_append, ← List.append_assoc] at hlog
      exact h pre e' post (List.append_inj' hlog rfl).1

end Yggdrasil.History
