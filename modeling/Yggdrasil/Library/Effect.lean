import Mathlib.Data.List.Basic

/-! Programs that act on an outside world. A program reads the history of the run,
emits further events, and ends with a value, with a raised exception, or is still
running when its fuel is spent. The world's answers are functions of the history,
so a statement over all answer functions covers every behaviour of the world.
Three rule sets follow: which events a program can emit, what holds when it
returns, and when two programs that differ in their error handling agree. -/

namespace Yggdrasil.Effect

/-- How a program ends. -/
inductive Outcome (X α : Type)
  | value (a : α)
  | raised (x : X)
  | running
  deriving DecidableEq

/-- A program over events `E` and exceptions `X`: from the history of the run to the
outcome and the events it emits, oldest first. -/
structure Program (E X α : Type) where
  run : List E → Outcome X α × List E

variable {E X α β γ : Type}

namespace Program

protected def pure (a : α) : Program E X α := ⟨fun _ => (.value a, [])⟩

protected def bind (m : Program E X α) (k : α → Program E X β) : Program E X β :=
  ⟨fun t => match m.run t with
    | (.value a, s) => (((k a).run (t ++ s)).1, s ++ ((k a).run (t ++ s)).2)
    | (.raised x, s) => (.raised x, s)
    | (.running, s) => (.running, s)⟩

instance : Monad (Program E X) where
  pure := Program.pure
  bind := Program.bind

def throw (x : X) : Program E X α := ⟨fun _ => (.raised x, [])⟩

/-- The program that never ends. -/
def diverge : Program E X α := ⟨fun _ => (.running, [])⟩

def history : Program E X (List E) := ⟨fun t => (.value t, [])⟩

def emit (e : E) : Program E X Unit := ⟨fun _ => (.value (), [e])⟩

/-- A raised exception is passed to the handler; the events emitted before it stay. -/
def handle (m : Program E X α) (h : X → Program E X α) : Program E X α :=
  ⟨fun t => match m.run t with
    | (.raised x, s) => (((h x).run (t ++ s)).1, s ++ ((h x).run (t ++ s)).2)
    | r => r⟩

/-- Run a program and return its outcome together with the events it emitted. -/
def attempt (m : Program E X α) : Program E X (Except X α × List E) :=
  ⟨fun t => match m.run t with
    | (.value a, s) => (.value (.ok a, s), s)
    | (.raised x, s) => (.value (.error x, s), s)
    | (.running, s) => (.running, s)⟩

def ofExcept : Except X α → Program E X α
  | .ok a => pure a
  | .error x => throw x

@[simp] theorem run_pure (a : α) (t : List E) :
    (pure a : Program E X α).run t = (.value a, []) := rfl

theorem run_bind (m : Program E X α) (k : α → Program E X β) (t : List E) :
    (m >>= k).run t = match m.run t with
      | (.value a, s) => (((k a).run (t ++ s)).1, s ++ ((k a).run (t ++ s)).2)
      | (.raised x, s) => (.raised x, s)
      | (.running, s) => (.running, s) := rfl

@[simp] theorem run_throw (x : X) (t : List E) :
    (throw x : Program E X α).run t = (.raised x, []) := rfl

@[simp] theorem run_diverge (t : List E) :
    (diverge : Program E X α).run t = (.running, []) := rfl

@[simp] theorem run_history (t : List E) :
    (history : Program E X (List E)).run t = (.value t, []) := rfl

@[simp] theorem run_emit (e : E) (t : List E) :
    (emit e : Program E X Unit).run t = (.value (), [e]) := rfl

@[simp] theorem run_ofExcept_ok (a : α) (t : List E) :
    (ofExcept (.ok a) : Program E X α).run t = (.value a, []) := rfl

@[simp] theorem run_ofExcept_error (x : X) (t : List E) :
    (ofExcept (.error x) : Program E X α).run t = (.raised x, []) := rfl

theorem run_ofExcept_eq_value {r : Except X α} {t s : List E} {a : α} :
    (ofExcept r : Program E X α).run t = (.value a, s) ↔ r = .ok a ∧ s = [] := by
  cases r <;> simp [eq_comm]

theorem run_bind_value {m : Program E X α} {k : α → Program E X β} {t s : List E} {a : α}
    (h : m.run t = (.value a, s)) :
    (m >>= k).run t = (((k a).run (t ++ s)).1, s ++ ((k a).run (t ++ s)).2) := by
  rw [run_bind, h]

/-- The events of the first part of a sequence are events of the sequence. -/
theorem mem_run_bind {m : Program E X α} {k : α → Program E X β} {t : List E} {e : E}
    (h : e ∈ (m.run t).2) : e ∈ ((m >>= k).run t).2 := by
  rw [run_bind]
  rcases hr : m.run t with ⟨_ | _ | _, s⟩ <;> rw [hr] at h
  · exact List.mem_append_left _ h
  · exact h
  · exact h

/-- A sequence returns exactly when both parts do. -/
theorem run_bind_eq_value {m : Program E X α} {k : α → Program E X β} {t s : List E} {b : β} :
    (m >>= k).run t = (.value b, s) ↔
      ∃ a s₁ s₂, m.run t = (.value a, s₁) ∧ (k a).run (t ++ s₁) = (.value b, s₂) ∧ s = s₁ ++ s₂ := by
  rw [run_bind]
  rcases m.run t with ⟨_ | _ | _, s₁⟩
  · rename_i a
    constructor
    · intro h
      rw [Prod.mk.injEq] at h
      exact ⟨a, s₁, _, rfl, Prod.ext h.1 rfl, h.2.symm⟩
    · rintro ⟨a', s₁', s₂, h₁, h₂, rfl⟩
      simp only [Prod.mk.injEq, Outcome.value.injEq] at h₁
      obtain ⟨rfl, rfl⟩ := h₁
      simp only [h₂]
  · simp
  · simp

theorem ext_run {m n : Program E X α} (h : ∀ t, m.run t = n.run t) : m = n := by
  cases m
  cases n
  exact congrArg Program.mk (funext h)

/-- What follows matters only for the values that are returned. -/
theorem bind_congr_of_value {m : Program E X α} {k k' : α → Program E X β}
    (h : ∀ t a s, m.run t = (.value a, s) → k a = k' a) : m >>= k = m >>= k' := by
  apply ext_run
  intro t
  rw [run_bind, run_bind]
  rcases hr : m.run t with ⟨a | x | _, s⟩
  · simp only [h t a s hr]
  · rfl
  · rfl

instance : LawfulMonad (Program E X) := by
  refine LawfulMonad.mk' (Program E X) (fun m => ?_) (fun a k => ?_) (fun m k l => ?_)
  · refine ext_run fun t => ?_
    change (m >>= fun a => pure a).run t = m.run t
    rw [run_bind]
    rcases m.run t with ⟨_ | _ | _, s⟩ <;> simp
  · refine ext_run fun t => ?_
    simp [run_bind]
  · refine ext_run fun t => ?_
    rcases hm : m.run t with ⟨a | x | _, s⟩
    · rcases hk : (k a).run (t ++ s) with ⟨b | x | _, s'⟩ <;> simp [run_bind, hm, hk]
    · simp [run_bind, hm]
    · simp [run_bind, hm]

theorem run_handle_eq_value {m : Program E X α} {h : X → Program E X α} {t s : List E} {a : α} :
    (handle m h).run t = (.value a, s) ↔ m.run t = (.value a, s) ∨
      ∃ x s₁ s₂, m.run t = (.raised x, s₁) ∧ (h x).run (t ++ s₁) = (.value a, s₂) ∧ s = s₁ ++ s₂ := by
  simp only [handle]
  rcases m.run t with ⟨_ | x | _, s₁⟩
  · simp
  · constructor
    · intro e
      rw [Prod.mk.injEq] at e
      exact .inr ⟨x, s₁, _, rfl, Prod.ext e.1 rfl, e.2.symm⟩
    · rintro (e | ⟨x', s₁', s₂, e₁, e₂, rfl⟩)
      · simp at e
      · simp only [Prod.mk.injEq, Outcome.raised.injEq] at e₁
        obtain ⟨rfl, rfl⟩ := e₁
        simp only [e₂]
  · simp

theorem run_attempt_eq_value {m : Program E X α} {t s : List E} {r : Except X α × List E} :
    (attempt m).run t = (.value r, s) ↔
      (∃ a, m.run t = (.value a, s) ∧ r = (.ok a, s)) ∨
        ∃ x, m.run t = (.raised x, s) ∧ r = (.error x, s) := by
  simp only [attempt]
  rcases m.run t with ⟨a | x | _, u⟩
  · simp only [Prod.mk.injEq, Outcome.value.injEq, reduceCtorEq, false_and, exists_false, or_false]
    constructor
    · rintro ⟨rfl, rfl⟩
      exact ⟨a, ⟨rfl, rfl⟩, rfl⟩
    · rintro ⟨b, ⟨rfl, rfl⟩, rfl⟩
      exact ⟨rfl, rfl⟩
  · simp only [Prod.mk.injEq, Outcome.raised.injEq, reduceCtorEq, false_and, exists_false, false_or,
      Outcome.value.injEq]
    constructor
    · rintro ⟨rfl, rfl⟩
      exact ⟨x, ⟨rfl, rfl⟩, rfl⟩
    · rintro ⟨b, ⟨rfl, rfl⟩, rfl⟩
      exact ⟨rfl, rfl⟩
  · simp

/-! ### Emitted events -/

/-- Every event the program emits satisfies `P`, whatever the history. -/
def Emits (P : E → Prop) (m : Program E X α) : Prop := ∀ t, ∀ e ∈ (m.run t).2, P e

theorem Emits.mono {P Q : E → Prop} {m : Program E X α} (h : Emits P m) (hPQ : ∀ e, P e → Q e) :
    Emits Q m := fun t e he => hPQ e (h t e he)

variable {P : E → Prop}

theorem emits_pure (a : α) : Emits P (pure a : Program E X α) := by
  intro t e he; simp at he

theorem emits_throw (x : X) : Emits P (throw x : Program E X α) := by
  intro t e he; simp at he

theorem emits_history : Emits P (history : Program E X (List E)) := by
  intro t e he; simp at he

theorem emits_emit {e : E} (h : P e) : Emits P (emit e : Program E X Unit) := by
  intro t e' he
  simp only [run_emit, List.mem_singleton] at he
  exact he ▸ h

theorem emits_ofExcept (r : Except X α) : Emits P (ofExcept r : Program E X α) := by
  cases r
  · exact emits_throw _
  · exact emits_pure _

theorem emits_bind {m : Program E X α} {k : α → Program E X β} (hm : Emits P m)
    (hk : ∀ a, Emits P (k a)) : Emits P (m >>= k) := by
  intro t e he
  have hmt := hm t
  rw [run_bind] at he
  rcases hr : m.run t with ⟨_ | _ | _, s⟩ <;> rw [hr] at he hmt
  · rcases List.mem_append.1 he with h | h
    · exact hmt e h
    · exact hk _ _ e h
  · exact hmt e he
  · exact hmt e he

theorem emits_handle {m : Program E X α} {h : X → Program E X α} (hm : Emits P m)
    (hh : ∀ x, Emits P (h x)) : Emits P (handle m h) := by
  intro t e he
  have hmt := hm t
  simp only [handle] at he
  rcases hr : m.run t with ⟨_ | _ | _, s⟩ <;> rw [hr] at he hmt
  · exact hmt e he
  · rcases List.mem_append.1 he with h' | h'
    · exact hmt e h'
    · exact hh _ _ e h'
  · exact hmt e he

theorem emits_ite {c : Prop} {_ : Decidable c} {m n : Program E X α} (hm : c → Emits P m)
    (hn : ¬c → Emits P n) : Emits P (if c then m else n) := by
  split_ifs with h
  · exact hm h
  · exact hn h

theorem emits_foldlM_of_mem {f : β → α → Program E X β} {l : List α}
    (hf : ∀ b, ∀ a ∈ l, Emits P (f b a)) (b : β) : Emits P (l.foldlM f b) := by
  induction l generalizing b with
  | nil => exact emits_pure b
  | cons a l ih =>
    rw [List.foldlM_cons]
    apply emits_bind (hf b a List.mem_cons_self)
    exact fun b' => ih (fun b a ha => hf b a (List.mem_cons_of_mem _ ha)) b'

theorem emits_foldlM {f : β → α → Program E X β} (hf : ∀ b a, Emits P (f b a)) (l : List α)
    (b : β) : Emits P (l.foldlM f b) := emits_foldlM_of_mem (fun b a _ => hf b a) b

/-! ### Correctness -/

/-- From a history satisfying `Pre`, a returned value and the new history satisfy
`Post`, and a raised exception and the new history satisfy `Err`. A program may be
left running only if `Run`: partial correctness is `Triple True`, total correctness
is `Triple False`. -/
structure Triple (Run : Prop) (Pre : List E → Prop) (m : Program E X α)
    (Post : α → List E → Prop) (Err : X → List E → Prop) : Prop where
  spec : ∀ t, Pre t → match m.run t with
    | (.value a, s) => Post a (t ++ s)
    | (.raised x, s) => Err x (t ++ s)
    | (.running, _) => Run

variable {Run : Prop} {Pre : List E → Prop} {Post : α → List E → Prop} {Err : X → List E → Prop}

theorem Triple.value {m : Program E X α} (h : Triple Run Pre m Post Err) {t s : List E} {a : α}
    (ht : Pre t) (hr : m.run t = (.value a, s)) : Post a (t ++ s) := by
  have := h.spec t ht
  rwa [hr] at this

/-- What holds however a total program ends, holds of the history at its end. -/
theorem Triple.ends {J : List E → Prop} {m : Program E X α}
    (h : Triple False Pre m (fun _ => J) fun _ => J) {t : List E} (ht : Pre t) :
    J (t ++ (m.run t).2) := by
  have := h.spec t ht
  rcases hr : m.run t with ⟨_ | _ | _, s⟩ <;> rw [hr] at this
  · exact this
  · exact this
  · exact this.elim

/-- A total program that raises nothing returns. -/
theorem Triple.returns {m : Program E X α} (h : Triple False Pre m Post (fun _ _ => False))
    {t : List E} (ht : Pre t) : ∃ a s, m.run t = (.value a, s) ∧ Post a (t ++ s) := by
  have := h.spec t ht
  rcases hr : m.run t with ⟨a | x | _, s⟩ <;> rw [hr] at this
  · exact ⟨a, s, rfl, this⟩
  · exact this.elim
  · exact this.elim

theorem Triple.consequence {Pre' : List E → Prop} {Post' : α → List E → Prop}
    {Err' : X → List E → Prop} {m : Program E X α} (h : Triple Run Pre m Post Err)
    (hpre : ∀ t, Pre' t → Pre t) (hpost : ∀ a t, Post a t → Post' a t)
    (herr : ∀ x t, Err x t → Err' x t) : Triple Run Pre' m Post' Err' := by
  refine ⟨fun t ht => ?_⟩
  have := h.spec t (hpre t ht)
  rcases hr : m.run t with ⟨_ | _ | _, s⟩ <;> rw [hr] at this
  · exact hpost _ _ this
  · exact herr _ _ this
  · exact this

/-- Two rules for one program hold together. -/
theorem Triple.and {Pre' : List E → Prop} {Post' : α → List E → Prop} {Err' : X → List E → Prop}
    {m : Program E X α} (h : Triple Run Pre m Post Err) (h' : Triple Run Pre' m Post' Err') :
    Triple Run (fun t => Pre t ∧ Pre' t) m (fun a t => Post a t ∧ Post' a t)
      (fun x t => Err x t ∧ Err' x t) := by
  refine ⟨fun t ht => ?_⟩
  have hm := h.spec t ht.1
  have hm' := h'.spec t ht.2
  rcases hr : m.run t with ⟨_ | _ | _, s⟩ <;> rw [hr] at hm hm'
  · exact ⟨hm, hm'⟩
  · exact ⟨hm, hm'⟩
  · exact hm

/-- A program only adds to the history: it keeps what more history cannot refute. -/
theorem Triple.frame {I : List E → Prop} {m : Program E X α} (h : Triple Run Pre m Post Err)
    (hI : ∀ t s, I t → I (t ++ s)) :
    Triple Run (fun t => Pre t ∧ I t) m (fun a t => Post a t ∧ I t) (fun x t => Err x t ∧ I t) := by
  refine ⟨fun t ht => ?_⟩
  have := h.spec t ht.1
  rcases hr : m.run t with ⟨_ | _ | _, s⟩ <;> rw [hr] at this
  · exact ⟨this, hI t s ht.2⟩
  · exact ⟨this, hI t s ht.2⟩
  · exact this

/-- The frame of a program without a precondition. -/
theorem Triple.keep {I : List E → Prop} {m : Program E X α}
    (h : Triple Run (fun _ => True) m Post Err) (hI : ∀ t s, I t → I (t ++ s)) :
    Triple Run I m (fun a t => Post a t ∧ I t) (fun x t => Err x t ∧ I t) :=
  (h.frame hI).consequence (fun _ ht => ⟨trivial, ht⟩) (fun _ _ => id) fun _ _ => id

theorem triple_true {m : Program E X α} :
    Triple True Pre m (fun _ _ => True) (fun _ _ => True) := by
  refine ⟨fun t _ => ?_⟩
  rcases m.run t with ⟨_ | _ | _, s⟩ <;> trivial

/-- A rule for each history gives the rule for a condition on histories. -/
theorem triple_intro {m : Program E X α}
    (h : ∀ t, Pre t → Triple Run (fun u => u = t) m Post Err) : Triple Run Pre m Post Err :=
  ⟨fun t ht => (h t ht).spec t rfl⟩

/-- The run from one history. -/
theorem triple_run (m : Program E X α) (t : List E) :
    Triple ((m.run t).1 = .running) (fun u => u = t) m
      (fun a u => (m.run t).1 = .value a ∧ u = t ++ (m.run t).2)
      (fun x u => (m.run t).1 = .raised x ∧ u = t ++ (m.run t).2) := by
  refine ⟨fun u hu => ?_⟩
  rw [hu]
  rcases m.run t with ⟨a | x | _, s⟩
  · exact ⟨rfl, rfl⟩
  · exact ⟨rfl, rfl⟩
  · rfl

/-- A rule about the runs that return. -/
theorem triple_of_value {m : Program E X α}
    (h : ∀ t a s, Pre t → m.run t = (.value a, s) → Post a (t ++ s)) :
    Triple True Pre m Post (fun _ _ => True) := by
  refine ⟨fun t ht => ?_⟩
  rcases hr : m.run t with ⟨a | x | _, s⟩
  · exact h t a s ht hr
  · trivial
  · trivial

theorem triple_pure {a : α} (h : ∀ t, Pre t → Post a t) :
    Triple Run Pre (pure a : Program E X α) Post Err := by
  refine ⟨fun t ht => ?_⟩
  simpa using h t ht

theorem triple_throw {x : X} (h : ∀ t, Pre t → Err x t) :
    Triple Run Pre (throw x : Program E X α) Post Err := by
  refine ⟨fun t ht => ?_⟩
  simpa using h t ht

theorem triple_diverge (h : Run) : Triple Run Pre (diverge : Program E X α) Post Err :=
  ⟨fun _ _ => h⟩

theorem triple_emit {e : E} {Post : Unit → List E → Prop} (h : ∀ t, Pre t → Post () (t ++ [e])) :
    Triple Run Pre (emit e : Program E X Unit) Post Err := by
  refine ⟨fun t ht => ?_⟩
  simpa using h t ht

theorem triple_ofExcept {r : Except X α} (hv : ∀ a t, r = .ok a → Pre t → Post a t)
    (hx : ∀ x t, r = .error x → Pre t → Err x t) :
    Triple Run Pre (ofExcept r : Program E X α) Post Err := by
  cases r with
  | ok a => exact triple_pure (fun t ht => hv a t rfl ht)
  | error x => exact triple_throw (fun t ht => hx x t rfl ht)

theorem triple_ite {c : Prop} {_ : Decidable c} {m n : Program E X α}
    (hm : c → Triple Run Pre m Post Err) (hn : ¬c → Triple Run Pre n Post Err) :
    Triple Run Pre (if c then m else n) Post Err := by
  split_ifs with h
  · exact hm h
  · exact hn h

theorem triple_bind {M : β → List E → Prop} {m : Program E X β} {k : β → Program E X α}
    (hm : Triple Run Pre m M Err) (hk : ∀ b, Triple Run (M b) (k b) Post Err) :
    Triple Run Pre (m >>= k) Post Err := by
  refine ⟨fun t ht => ?_⟩
  have hmt := hm.spec t ht
  rw [run_bind]
  rcases hr : m.run t with ⟨b | x | _, s⟩ <;> rw [hr] at hmt
  · have hkt := (hk b).spec (t ++ s) hmt
    rcases hr' : (k b).run (t ++ s) with ⟨_ | _ | _, s'⟩ <;> rw [hr'] at hkt
    · simpa [hr'] using hkt
    · simpa [hr'] using hkt
    · simpa [hr'] using hkt
  · exact hmt
  · exact hmt

theorem triple_handle {M : X → List E → Prop} {m : Program E X α} {h : X → Program E X α}
    (hm : Triple Run Pre m Post M) (hh : ∀ x, Triple Run (M x) (h x) Post Err) :
    Triple Run Pre (handle m h) Post Err := by
  refine ⟨fun t ht => ?_⟩
  have hmt := hm.spec t ht
  simp only [handle]
  rcases hr : m.run t with ⟨_ | x | _, s⟩ <;> rw [hr] at hmt
  · exact hmt
  · have hht := (hh x).spec (t ++ s) hmt
    rcases hr' : (h x).run (t ++ s) with ⟨_ | _ | _, s'⟩ <;> rw [hr'] at hht
    · simpa [hr'] using hht
    · simpa [hr'] using hht
    · simpa [hr'] using hht
  · exact hmt

theorem triple_attempt {m : Program E X α} {Post' : Except X α × List E → List E → Prop}
    {Err' : X → List E → Prop} (h : Triple Run Pre m Post Err)
    (hv : ∀ a s t, Post a t → Post' (.ok a, s) t) (hx : ∀ x s t, Err x t → Post' (.error x, s) t) :
    Triple Run Pre (attempt m) Post' Err' := by
  refine ⟨fun t ht => ?_⟩
  have hmt := h.spec t ht
  simp only [attempt]
  rcases hr : m.run t with ⟨a | x | _, s⟩ <;> rw [hr] at hmt
  · exact hv a s _ hmt
  · exact hx x s _ hmt
  · exact hmt

/-- If all events so far satisfy `P` and the program emits such events only, all events do. -/
theorem Emits.triple {P : E → Prop} {m : Program E X α} (h : Emits P m) :
    Triple True (fun t => ∀ e ∈ t, P e) m (fun _ t => ∀ e ∈ t, P e) (fun _ t => ∀ e ∈ t, P e) := by
  refine ⟨fun t ht => ?_⟩
  have hm := h t
  have hall : ∀ e ∈ t ++ (m.run t).2, P e := fun e he =>
    (List.mem_append.1 he).elim (ht e) (hm e)
  rcases hr : m.run t with ⟨_ | _ | _, s⟩ <;> rw [hr] at hall
  · exact hall
  · exact hall
  · trivial

/-- Every exception the program raises satisfies `P`, whatever the history. -/
abbrev Raises (P : X → Prop) (m : Program E X α) : Prop :=
  Triple True (fun _ => True) m (fun _ _ => True) (fun x _ => P x)

theorem raises_pure {P : X → Prop} (a : α) : Raises P (pure a : Program E X α) :=
  triple_pure fun _ _ => trivial

theorem raises_bind {P : X → Prop} {m : Program E X α} {k : α → Program E X β}
    (hm : Raises P m) (hk : ∀ a, Raises P (k a)) : Raises P (m >>= k) := triple_bind hm hk

/-- Loop rule: an invariant of the accumulator and the history, kept by every pass. -/
theorem triple_foldlM {I : β → List E → Prop} {f : β → α → Program E X β} {l : List α}
    (hf : ∀ b, ∀ a ∈ l, Triple Run (I b) (f b a) I Err) (b : β) :
    Triple Run (I b) (l.foldlM f b) I Err := by
  induction l generalizing b with
  | nil => exact triple_pure (fun _ h => h)
  | cons a l ih =>
    rw [List.foldlM_cons]
    exact triple_bind (hf b a (by simp)) (fun b' => ih (fun b a ha => hf b a (by simp [ha])) b')

theorem triple_foldlM_append {I : List α → β → List E → Prop} {f : β → α → Program E X β}
    {l : List α} (done : List α) (hf : ∀ pre a post b, done ++ l = pre ++ a :: post →
      Triple Run (I pre b) (f b a) (I (pre ++ [a])) Err) (b : β) :
    Triple Run (I done b) (l.foldlM f b) (I (done ++ l)) Err := by
  induction l generalizing done b with
  | nil => exact triple_pure (fun t h => by simpa using h)
  | cons a l ih =>
    rw [List.foldlM_cons]
    refine triple_bind (hf done a l b rfl) fun b' => ?_
    simpa using ih (done ++ [a]) (fun pre a' post b he => hf pre a' post b (by simpa using he)) b'

/-- Loop rule whose invariant also refers to the elements that are done. -/
theorem triple_foldlM_done {I : List α → β → List E → Prop} {f : β → α → Program E X β}
    {l : List α} (hf : ∀ pre a post b, l = pre ++ a :: post →
      Triple Run (I pre b) (f b a) (I (pre ++ [a])) Err) (b : β) :
    Triple Run (I [] b) (l.foldlM f b) (I l) Err :=
  triple_foldlM_append [] (fun pre a post b he => hf pre a post b he) b

/-- Loop rule with a first pass of its own. -/
theorem triple_foldlM_cons {I : β → List E → Prop} {f : β → α → Program E X β} {a : α}
    {l : List α} {b : β} (h₀ : Triple Run Pre (f b a) I Err)
    (hf : ∀ b, ∀ a ∈ l, Triple Run (I b) (f b a) I Err) :
    Triple Run Pre ((a :: l).foldlM f b) I Err := by
  rw [List.foldlM_cons]
  exact triple_bind h₀ fun b' => triple_foldlM hf b'

/-! ### Events that must come -/

/-- From every history satisfying `Pre` the program emits an event that satisfies `P`. -/
def Reaches (Pre : List E → Prop) (P : E → Prop) (m : Program E X α) : Prop :=
  ∀ t, Pre t → ∃ e ∈ (m.run t).2, P e

theorem reaches_bind_left {m : Program E X β} {k : β → Program E X α} (h : Reaches Pre P m) :
    Reaches Pre P (m >>= k) := by
  intro t ht
  obtain ⟨e, he, hP⟩ := h t ht
  exact ⟨e, mem_run_bind he, hP⟩

theorem reaches_bind {M : β → List E → Prop} {m : Program E X β} {k : β → Program E X α}
    (hm : Triple False Pre m M fun _ _ => False) (hk : ∀ b, Reaches (M b) P (k b)) :
    Reaches Pre P (m >>= k) := by
  intro t ht
  obtain ⟨b, s, hr, hM⟩ := hm.returns ht
  obtain ⟨e, he, hP⟩ := hk b _ hM
  rw [run_bind_value hr]
  exact ⟨e, List.mem_append_right _ he, hP⟩

/-! ### Agreement of a strict and a lenient program -/

/-- The strict program returns exactly when the lenient one returns without emitting an
event of the kind `F`; the value and the events are then the same. -/
def Agree (F : E → Prop) (strict lenient : Program E X α) : Prop :=
  ∀ t a s, strict.run t = (.value a, s) ↔ lenient.run t = (.value a, s) ∧ ∀ e ∈ s, ¬F e

variable {F : E → Prop}

/-- A program without events of the kind agrees with itself. -/
theorem agree_refl {m : Program E X α} (h : Emits (fun e => ¬F e) m) : Agree F m m := by
  intro t a s
  refine ⟨fun hr => ⟨hr, fun e he => h t e (by rw [hr]; exact he)⟩, And.left⟩

theorem agree_bind {m n : Program E X β} {k l : β → Program E X α} (hmn : Agree F m n)
    (hkl : ∀ b, Agree F (k b) (l b)) : Agree F (m >>= k) (n >>= l) := by
  intro t a s
  rw [run_bind_eq_value, run_bind_eq_value]
  constructor
  · rintro ⟨b, s₁, s₂, h₁, h₂, rfl⟩
    obtain ⟨h₁, hF₁⟩ := (hmn t b s₁).1 h₁
    obtain ⟨h₂, hF₂⟩ := (hkl b _ a s₂).1 h₂
    exact ⟨⟨b, s₁, s₂, h₁, h₂, rfl⟩, fun e he => (List.mem_append.1 he).elim (hF₁ e) (hF₂ e)⟩
  · rintro ⟨⟨b, s₁, s₂, h₁, h₂, rfl⟩, hF⟩
    exact ⟨b, s₁, s₂, (hmn t b s₁).2 ⟨h₁, fun e he => hF e (by simp [he])⟩,
      (hkl b _ a s₂).2 ⟨h₂, fun e he => hF e (by simp [he])⟩, rfl⟩

/-- Two handlers around one body agree where the handlers do. -/
theorem agree_handle {m : Program E X α} {h k : X → Program E X α}
    (hm : Emits (fun e => ¬F e) m) (hhk : ∀ x, Agree F (h x) (k x)) :
    Agree F (handle m h) (handle m k) := by
  intro t a s
  rw [run_handle_eq_value, run_handle_eq_value]
  have hmF : ∀ {o s₁}, m.run t = (o, s₁) → ∀ e ∈ s₁, ¬F e := fun hr e he =>
    hm t e (by rw [hr]; exact he)
  constructor
  · rintro (h₁ | ⟨x, s₁, s₂, h₁, h₂, rfl⟩)
    · exact ⟨.inl h₁, hmF h₁⟩
    · obtain ⟨h₂, hF₂⟩ := (hhk x _ a s₂).1 h₂
      exact ⟨.inr ⟨x, s₁, s₂, h₁, h₂, rfl⟩,
        fun e he => (List.mem_append.1 he).elim (hmF h₁ e) (hF₂ e)⟩
  · rintro ⟨h₁ | ⟨x, s₁, s₂, h₁, h₂, rfl⟩, hF⟩
    · exact .inl h₁
    · exact .inr ⟨x, s₁, s₂, h₁, (hhk x _ a s₂).2 ⟨h₂, fun e he => hF e (by simp [he])⟩, rfl⟩

/-- A program that never returns agrees with any program that emits an event of the kind. -/
theorem agree_of_emits {m n : Program E X α} (hm : ∀ t a s, m.run t ≠ (.value a, s))
    (hn : ∀ t, ∃ e ∈ (n.run t).2, F e) : Agree F m n := by
  intro t a s
  refine ⟨fun hr => absurd hr (hm t a s), fun ⟨hr, hF⟩ => ?_⟩
  obtain ⟨e, he, hFe⟩ := hn t
  rw [hr] at he
  exact absurd hFe (hF e he)

theorem agree_ite {c : Prop} {_ : Decidable c} {m m' n n' : Program E X α}
    (hm : c → Agree F m n) (hn : ¬c → Agree F m' n') :
    Agree F (if c then m else m') (if c then n else n') := by
  split_ifs with h
  · exact hm h
  · exact hn h

theorem agree_foldlM {f g : β → α → Program E X β} (hfg : ∀ b a, Agree F (f b a) (g b a)) :
    ∀ (l : List α) (b : β), Agree F (l.foldlM f b) (l.foldlM g b)
  | [], b => agree_refl (emits_pure b)
  | a :: l, b => by
    rw [List.foldlM_cons, List.foldlM_cons]
    exact agree_bind (hfg b a) (fun b' => agree_foldlM hfg l b')

end Program

end Yggdrasil.Effect
