import Yggdrasil.Library.Effect

/-! Parts of a run: what has happened after a history, and a loop of programs as a chain of
passes. The run of a monadic fold that returns is cut
into one segment of events for each element, in the order of the list, so that a property of
the run is proved by induction on its passes. -/

namespace Yggdrasil.Effect.Program

variable {E X α β : Type} {f : β → α → Program E X β}

/-- What happened after the history `t` satisfies `P`. -/
def After (t : List E) (P : List E → Prop) (u : List E) : Prop := ∃ s, u = t ++ s ∧ P s

theorem After.refl {t : List E} {P : List E → Prop} (h : P []) : After t P t :=
  ⟨[], (List.append_nil t).symm, h⟩

theorem After.snoc {t u : List E} {P Q : List E → Prop} {e : E} (h : After t P u)
    (hPQ : ∀ s, P s → Q (s ++ [e])) : After t Q (u ++ [e]) := by
  obtain ⟨s, rfl, hs⟩ := h
  exact ⟨s ++ [e], List.append_assoc _ _ _, hPQ s hs⟩

theorem After.mono {t u : List E} {P Q : List E → Prop} (h : After t P u)
    (hPQ : ∀ s, P s → Q s) : After t Q u := by
  obtain ⟨s, rfl, hs⟩ := h
  exact ⟨s, rfl, hPQ s hs⟩

/-- What holds after the history holds of the events of the run from there. -/
theorem After.events {t s : List E} {P : List E → Prop} (h : After t P (t ++ s)) : P s := by
  obtain ⟨s', hs, hP⟩ := h
  rwa [List.append_cancel_left hs]

/-- The passes of a fold that returns, with the events of each. -/
inductive Segmented (f : β → α → Program E X β) :
    List E → β → List α → List (List E) → β → Prop
  | nil (t : List E) (b : β) : Segmented f t b [] [] b
  | cons {t s : List E} {a : α} {b b₁ b' : β} {l : List α} {segments : List (List E)} :
    (f b a).run t = (.value b₁, s) → Segmented f (t ++ s) b₁ l segments b' →
      Segmented f t b (a :: l) (s :: segments) b'

/-- A fold returns exactly through such a chain. -/
theorem run_foldlM_eq_value {l : List α} {t s : List E} {b b' : β} :
    (l.foldlM f b).run t = (.value b', s) ↔
      ∃ segments, Segmented f t b l segments b' ∧ s = segments.flatten := by
  induction l generalizing t s b with
  | nil =>
    rw [List.foldlM_nil, run_pure]
    constructor
    · intro h
      cases h
      exact ⟨[], .nil _ _, rfl⟩
    · rintro ⟨segments, h, rfl⟩
      cases h
      rfl
  | cons a l ih =>
    rw [List.foldlM_cons, run_bind_eq_value]
    constructor
    · rintro ⟨b₁, s₁, s₂, h₁, h₂, rfl⟩
      obtain ⟨segments, hrest, rfl⟩ := ih.1 h₂
      exact ⟨s₁ :: segments, .cons h₁ hrest, rfl⟩
    · rintro ⟨segments, h, rfl⟩
      cases h with
      | cons h₁ hrest => exact ⟨_, _, _, h₁, ih.2 ⟨_, hrest, rfl⟩, rfl⟩

end Yggdrasil.Effect.Program
