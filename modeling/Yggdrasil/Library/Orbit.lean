import Mathlib.Data.Set.Finite.Basic
import Mathlib.Dynamics.PeriodicPts.Defs

/-! The run of a partial function from a state on: it ends where the function is undefined. On
finitely many states a run ends exactly if it repeats none. -/

namespace Yggdrasil.Orbit

variable {σ : Type}

/-- One step of the run; an ended run stays ended. -/
def advance (f : σ → Option σ) (o : Option σ) : Option σ := o.bind f

/-- The states of the first `n` steps. -/
def trace (f : σ → Option σ) : ℕ → Option σ → List σ
  | 0, _ => []
  | _ + 1, none => []
  | n + 1, some a => a :: trace f n (f a)

variable {f : σ → Option σ}

theorem length_trace_le : ∀ (n : ℕ) (o : Option σ), (trace f n o).length ≤ n
  | 0, _ => le_rfl
  | _ + 1, none => Nat.zero_le _
  | n + 1, some a => Nat.succ_le_succ (length_trace_le n (f a))

theorem getElem?_trace : ∀ {n i : ℕ} (o : Option σ), i < n →
    (trace f n o)[i]? = (advance f)^[i] o
  | n + 1, i, none, _ => by
    have h : advance f none = none := rfl
    rw [Function.iterate_fixed h, trace, List.getElem?_nil]
  | n + 1, 0, some a, _ => rfl
  | n + 1, i + 1, some a, h => by
    rw [trace, List.getElem?_cons_succ, getElem?_trace (f a) (Nat.lt_of_succ_lt_succ h),
      Function.iterate_succ_apply]
    rfl

theorem mem_trace {n : ℕ} {o : Option σ} {a : σ} (h : a ∈ trace f n o) :
    ∃ i, (advance f)^[i] o = some a := by
  obtain ⟨i, hi⟩ := List.mem_iff_getElem?.1 h
  have hlt : i < n := (List.getElem?_eq_some_iff.1 hi).1.trans_le (length_trace_le n o)
  exact ⟨i, (getElem?_trace o hlt).symm.trans hi⟩

theorem length_trace_lt_iff {n : ℕ} {o : Option σ} :
    (trace f (n + 1) o).length < n + 1 ↔ (advance f)^[n] o = none := by
  rw [← getElem?_trace o n.lt_succ_self, List.getElem?_eq_none_iff, Nat.lt_succ_iff]

/-- A repeated state comes back again and again. -/
theorem nodup_of_ends {m : ℕ} {o : Option σ} (h : (advance f)^[m] o = none) (n : ℕ) :
    (trace f n o).Nodup := by
  have hnone : ∀ k, m ≤ k → (advance f)^[k] o = none := by
    intro k hk
    obtain ⟨d, rfl⟩ := Nat.exists_eq_add_of_le hk
    rw [Nat.add_comm, Function.iterate_add_apply, h, Function.iterate_fixed rfl]
  rw [List.nodup_iff_getElem?_ne_getElem?]
  intro i j hij hj he
  have hjn := hj.trans_le (length_trace_le n o)
  rw [getElem?_trace o (hij.trans hjn), getElem?_trace o hjn] at he
  have hsome : (advance f)^[j] o ≠ none := by
    rw [← getElem?_trace o hjn, List.getElem?_eq_getElem hj]
    exact Option.some_ne_none _
  have hperiod : Function.IsPeriodicPt (advance f) (j - i) ((advance f)^[i] o) := by
    rw [Function.IsPeriodicPt, Function.IsFixedPt, ← Function.iterate_add_apply,
      Nat.sub_add_cancel hij.le, he]
  have hback := hperiod.mul_const m
  rw [Function.IsPeriodicPt, Function.IsFixedPt, ← Function.iterate_add_apply, hnone] at hback
  · exact hsome (he ▸ hback.symm)
  · have : 1 * m ≤ (j - i) * m := Nat.mul_le_mul_right m (by omega)
    omega

/-- The run ends exactly if it repeats no state, where it meets finitely many. -/
theorem ends_iff_nodup {o : Option σ} (hfin : {a | ∃ i, (advance f)^[i] o = some a}.Finite) :
    (∃ n, (trace f n o).length < n) ↔ ∀ n, (trace f n o).Nodup := by
  classical
  constructor
  · rintro ⟨n, hn⟩
    cases n with
    | zero => exact absurd hn (Nat.not_lt_zero _)
    | succ n => exact nodup_of_ends (length_trace_lt_iff.1 hn)
  · intro hnodup
    by_contra hends
    push Not at hends
    set n := hfin.toFinset.card + 1
    have hsub : (trace f n o).toFinset ⊆ hfin.toFinset := fun a ha =>
      hfin.mem_toFinset.2 (mem_trace (List.mem_toFinset.1 ha))
    have hcard := Finset.card_le_card hsub
    rw [List.toFinset_card_of_nodup (hnodup n)] at hcard
    have := hends n
    omega

end Yggdrasil.Orbit
