import Mathlib.Logic.Function.Basic
import Mathlib.Logic.Relation
import Yggdrasil.Library.Effect

/-! Programs as trees of calls to a shared world. A call is answered with a value or with
an exception, and the world decides which, together with its next state. The tree can be
run alone, with rules for what holds when it ends and at every state it passes, or call
by call among other processes that change the same state. -/

namespace Yggdrasil.Effect

/-- A program that calls `C`, expects an answer in `A c` to the call `c`, may raise `X` and
returns `α`; `hang` is a loop whose fuel is spent. -/
inductive Process (C : Type) (A : C → Type) (X α : Type)
  | ret (a : α)
  | raise (x : X)
  | hang
  | call (c : C) (k : Except X (A c) → Process C A X α)

/-- Which answer to a call, and which next state, are possible in a state. -/
abbrev World (S C : Type) (A : C → Type) (X : Type) := S → (c : C) → Except X (A c) → S → Prop

variable {S C : Type} {A : C → Type} {X α β : Type}

namespace Process

protected def bind : Process C A X α → (α → Process C A X β) → Process C A X β
  | ret a, f => f a
  | raise x, _ => raise x
  | hang, _ => hang
  | call c k, f => call c fun r => (k r).bind f

instance : Monad (Process C A X) where
  pure := ret
  bind := Process.bind

/-- Make a call; an exception it is answered with is raised. -/
def perform (c : C) : Process C A X (A c) :=
  call c fun
    | .ok a => ret a
    | .error x => raise x

/-- `try … except`: a raised exception goes to the handler. -/
def handle : Process C A X α → (X → Process C A X α) → Process C A X α
  | ret a, _ => ret a
  | raise x, h => h x
  | hang, _ => hang
  | call c k, h => call c fun r => (k r).handle h

/-- `try … finally`: the second part runs however the first ends. -/
def ensure : Process C A X α → Process C A X Unit → Process C A X α
  | ret a, q => q >>= fun _ => ret a
  | raise x, q => q >>= fun _ => raise x
  | hang, _ => hang
  | call c k, q => call c fun r => (k r).ensure q

@[simp] theorem pure_eq (a : α) : (pure a : Process C A X α) = ret a := rfl

@[simp] theorem ret_bind (a : α) (f : α → Process C A X β) : (ret a >>= f) = f a := rfl

@[simp] theorem raise_bind (x : X) (f : α → Process C A X β) :
    (raise x >>= f) = (raise x : Process C A X β) := rfl

@[simp] theorem hang_bind (f : α → Process C A X β) :
    (hang >>= f) = (hang : Process C A X β) := rfl

@[simp] theorem call_bind (c : C) (k : Except X (A c) → Process C A X α)
    (f : α → Process C A X β) : (call c k >>= f) = call c fun r => k r >>= f := rfl

/-! ### Runs -/

/-- A run from a state: finished with its outcome, or still on its way. -/
inductive Exec (W : World S C A X) : Process C A X α → S → Outcome X α → S → Prop
  | stop (p : Process C A X α) (s : S) : Exec W p s .running s
  | ret (a : α) (s : S) : Exec W (ret a) s (.value a) s
  | raise (x : X) (s : S) : Exec W (raise x) s (.raised x) s
  | call {c : C} {k : Except X (A c) → Process C A X α} {r : Except X (A c)} {s s₁ s' : S}
      {o : Outcome X α} (hw : W s c r s₁) (h : Exec W (k r) s₁ o s') : Exec W (call c k) s o s'

variable {W : World S C A X}

theorem exec_call {c : C} {k : Except X (A c) → Process C A X α} {s s' : S} {o : Outcome X α} :
    Exec W (call c k) s o s' ↔
      (o = .running ∧ s' = s) ∨ ∃ r s₁, W s c r s₁ ∧ Exec W (k r) s₁ o s' := by
  constructor
  · intro h
    cases h with
    | stop => exact .inl ⟨rfl, rfl⟩
    | call hw h => exact .inr ⟨_, _, hw, h⟩
  · rintro (⟨rfl, rfl⟩ | ⟨r, s₁, hw, h⟩)
    · exact .stop _ _
    · exact .call hw h

theorem exec_ret {a : α} {s s' : S} {o : Outcome X α} (h : Exec W (ret a) s o s') :
    s' = s ∧ (o = .running ∨ o = .value a) := by
  cases h with
  | stop => exact ⟨rfl, .inl rfl⟩
  | ret => exact ⟨rfl, .inr rfl⟩

theorem exec_raise {x : X} {s s' : S} {o : Outcome X α} (h : Exec W (raise x) s o s') :
    s' = s ∧ (o = .running ∨ o = .raised x) := by
  cases h with
  | stop => exact ⟨rfl, .inl rfl⟩
  | raise => exact ⟨rfl, .inr rfl⟩

theorem exec_hang {s s' : S} {o : Outcome X α} (h : Exec W hang s o s') :
    s' = s ∧ o = .running := by
  cases h with
  | stop => exact ⟨rfl, rfl⟩

/-- A run of a sequence is a run of its first part, followed by the second if the first
returns. -/
theorem exec_bind {p : Process C A X α} {f : α → Process C A X β} {s s' : S} {o : Outcome X β}
    (h : Exec W (p >>= f) s o s') :
    (∃ a s₁, Exec W p s (.value a) s₁ ∧ Exec W (f a) s₁ o s') ∨
      (∃ x, o = .raised x ∧ Exec W p s (.raised x) s') ∨ (o = .running ∧ Exec W p s .running s') := by
  induction p generalizing s with
  | ret a => exact .inl ⟨a, s, .ret a s, h⟩
  | raise x =>
    obtain ⟨rfl, rfl | rfl⟩ := exec_raise h
    · exact .inr (.inr ⟨rfl, .stop _ _⟩)
    · exact .inr (.inl ⟨x, rfl, .raise x _⟩)
  | hang =>
    obtain ⟨rfl, rfl⟩ := exec_hang h
    exact .inr (.inr ⟨rfl, .stop _ _⟩)
  | call c k ih =>
    rcases exec_call.1 h with ⟨rfl, rfl⟩ | ⟨r, s₁, hw, hk⟩
    · exact .inr (.inr ⟨rfl, .stop _ _⟩)
    · rcases ih r hk with ⟨a, s₂, h₁, h₂⟩ | ⟨x, rfl, h₁⟩ | ⟨rfl, h₁⟩
      · exact .inl ⟨a, s₂, .call hw h₁, h₂⟩
      · exact .inr (.inl ⟨x, rfl, .call hw h₁⟩)
      · exact .inr (.inr ⟨rfl, .call hw h₁⟩)

theorem Exec.bind {p : Process C A X α} {f : α → Process C A X β} {s s₁ s' : S} {a : α}
    {o : Outcome X β} (h : Exec W p s (.value a) s₁) (hf : Exec W (f a) s₁ o s') :
    Exec W (p >>= f) s o s' := by
  induction p generalizing s with
  | ret b =>
    obtain ⟨rfl, ho | ho⟩ := exec_ret h
    · cases ho
    · cases ho
      exact hf
  | raise x =>
    obtain ⟨-, ho | ho⟩ := exec_raise h <;> cases ho
  | hang => cases (exec_hang h).2
  | call c k ih =>
    rcases exec_call.1 h with ⟨ho, -⟩ | ⟨r, s₂, hw, hk⟩
    · cases ho
    · exact .call hw (ih r hk)

theorem Exec.perform {c : C} {a : A c} {s s' : S} (hw : W s c (.ok a) s') :
    Exec W (perform c) s (.value a) s' :=
  .call hw (.ret a s')

/-- What a process passes on its way it passes as the first part of a sequence. -/
theorem Exec.bind_running {p : Process C A X α} {f : α → Process C A X β} {s s' : S}
    (h : Exec W p s .running s') : Exec W (p >>= f) s .running s' := by
  induction p generalizing s with
  | ret a =>
    obtain ⟨rfl, -⟩ := exec_ret h
    exact .stop _ _
  | raise x =>
    obtain ⟨rfl, -⟩ := exec_raise h
    exact .stop _ _
  | hang =>
    obtain ⟨rfl, -⟩ := exec_hang h
    exact .stop _ _
  | call c k ih =>
    rcases exec_call.1 h with ⟨-, rfl⟩ | ⟨r, s₁, hw, hk⟩
    · exact .stop _ _
    · exact .call hw (ih r hk)

theorem Exec.handle_running {p : Process C A X α} {q : X → Process C A X α} {s s' : S}
    (h : Exec W p s .running s') : Exec W (p.handle q) s .running s' := by
  induction p generalizing s with
  | ret a =>
    obtain ⟨rfl, -⟩ := exec_ret h
    exact .stop _ _
  | raise x =>
    obtain ⟨rfl, -⟩ := exec_raise h
    exact .stop _ _
  | hang =>
    obtain ⟨rfl, -⟩ := exec_hang h
    exact .stop _ _
  | call c k ih =>
    rcases exec_call.1 h with ⟨-, rfl⟩ | ⟨r, s₁, hw, hk⟩
    · exact .stop _ _
    · exact .call hw (ih r hk)

/-- The run in a world that answers by a function of its state. -/
def play (w : S → (c : C) → Except X (A c) × S) : Process C A X α → S → Outcome X α × S
  | ret a, s => (.value a, s)
  | raise x, s => (.raised x, s)
  | hang, s => (.running, s)
  | call c k, s => (k (w s c).1).play w (w s c).2

theorem exec_play_of_invariant {I : S → Prop} {w : S → (c : C) → Except X (A c) × S}
    (hw : ∀ s c, I s → W s c (w s c).1 (w s c).2 ∧ I (w s c).2) (p : Process C A X α) {s : S}
    (hs : I s) : Exec W p s (p.play w s).1 (p.play w s).2 := by
  induction p generalizing s with
  | ret a => exact .ret a s
  | raise x => exact .raise x s
  | hang => exact .stop _ s
  | call c k ih => exact .call (hw s c hs).1 (ih _ (hw s c hs).2)

theorem exec_play {w : S → (c : C) → Except X (A c) × S} (hw : ∀ s c, W s c (w s c).1 (w s c).2)
    (p : Process C A X α) (s : S) : Exec W p s (p.play w s).1 (p.play w s).2 :=
  exec_play_of_invariant (I := fun _ => True) (fun s c _ => ⟨hw s c, trivial⟩) p trivial

theorem play_bind_value {w : S → (c : C) → Except X (A c) × S} {p : Process C A X β}
    {f : β → Process C A X α} {s u : S} {b : β} (h : p.play w s = (.value b, u)) :
    (p >>= f).play w s = (f b).play w u := by
  induction p generalizing s with
  | ret b =>
    cases h
    rfl
  | raise x => cases h
  | hang => cases h
  | call c k ih => exact ih _ h

theorem play_handle_value {w : S → (c : C) → Except X (A c) × S} {p : Process C A X α}
    {q : X → Process C A X α} {s u : S} {a : α} (h : p.play w s = (.value a, u)) :
    (p.handle q).play w s = (.value a, u) := by
  induction p generalizing s with
  | ret b => exact h
  | raise x => cases h
  | hang => cases h
  | call c k ih => exact ih _ h

/-! ### Correctness -/

/-- From a state satisfying `Pre` every state of a run satisfies `I`, a returned value and
the last state satisfy `Post`, a raised exception and the last state satisfy `Err`. -/
structure Triple (W : World S C A X) (I Pre : S → Prop) (p : Process C A X α)
    (Post : α → S → Prop) (Err : X → S → Prop) : Prop where
  always : ∀ s, Pre s → ∀ o s', Exec W p s o s' → I s'
  value : ∀ s, Pre s → ∀ a s', Exec W p s (.value a) s' → Post a s'
  raised : ∀ s, Pre s → ∀ x s', Exec W p s (.raised x) s' → Err x s'

variable {I Pre : S → Prop} {Post : α → S → Prop} {Err : X → S → Prop}

theorem Triple.start {p : Process C A X α} (h : Triple W I Pre p Post Err) {s : S} (hs : Pre s) :
    I s := h.always s hs _ _ (.stop p s)

theorem Triple.consequence {Pre' : S → Prop} {Post' : α → S → Prop} {Err' : X → S → Prop}
    {p : Process C A X α} (h : Triple W I Pre p Post Err) (hpre : ∀ s, Pre' s → Pre s)
    (hpost : ∀ a s, Post a s → Post' a s) (herr : ∀ x s, Err x s → Err' x s) :
    Triple W I Pre' p Post' Err' :=
  ⟨fun s hs => h.always s (hpre s hs), fun s hs a s' hr => hpost a s' (h.value s (hpre s hs) a s' hr),
    fun s hs x s' hr => herr x s' (h.raised s (hpre s hs) x s' hr)⟩

/-- The last state is one of the states of the run. -/
theorem Triple.last {p : Process C A X α} (h : Triple W I Pre p Post Err) :
    Triple W I Pre p (fun a s => Post a s ∧ I s) (fun x s => Err x s ∧ I s) :=
  ⟨h.always, fun s hs a s' hr => ⟨h.value s hs a s' hr, h.always s hs _ s' hr⟩,
    fun s hs x s' hr => ⟨h.raised s hs x s' hr, h.always s hs _ s' hr⟩⟩

theorem Triple.weaken {I' : S → Prop} {p : Process C A X α} (h : Triple W I Pre p Post Err)
    (hI : ∀ s, I s → I' s) : Triple W I' Pre p Post Err :=
  ⟨fun s hs o s' hr => hI s' (h.always s hs o s' hr), h.value, h.raised⟩

/-- Two rules for one process hold together. -/
theorem Triple.and {I' Pre' : S → Prop} {Post' : α → S → Prop} {Err' : X → S → Prop}
    {p : Process C A X α} (h : Triple W I Pre p Post Err) (h' : Triple W I' Pre' p Post' Err') :
    Triple W (fun s => I s ∧ I' s) (fun s => Pre s ∧ Pre' s) p (fun a s => Post a s ∧ Post' a s)
      fun x s => Err x s ∧ Err' x s :=
  ⟨fun s hs o s' hr => ⟨h.always s hs.1 o s' hr, h'.always s hs.2 o s' hr⟩,
    fun s hs a s' hr => ⟨h.value s hs.1 a s' hr, h'.value s hs.2 a s' hr⟩,
    fun s hs x s' hr => ⟨h.raised s hs.1 x s' hr, h'.raised s hs.2 x s' hr⟩⟩

/-- A rule for each state gives the rule for a condition on states. -/
theorem triple_intro {p : Process C A X α}
    (h : ∀ s, Pre s → Triple W I (fun u => u = s) p Post Err) : Triple W I Pre p Post Err :=
  ⟨fun s hs => (h s hs).always s rfl, fun s hs => (h s hs).value s rfl,
    fun s hs => (h s hs).raised s rfl⟩

theorem triple_true {p : Process C A X α} :
    Triple W (fun _ => True) Pre p (fun _ _ => True) (fun _ _ => True) :=
  ⟨fun _ _ _ _ _ => trivial, fun _ _ _ _ _ => trivial, fun _ _ _ _ _ => trivial⟩

theorem triple_ret {a : α} (hI : ∀ s, Pre s → I s) (h : ∀ s, Pre s → Post a s) :
    Triple W I Pre (ret a) Post Err := by
  refine ⟨fun s hs o s' hr => ?_, fun s hs b s' hr => ?_, fun s hs x s' hr => ?_⟩
  · rw [(exec_ret hr).1]
    exact hI s hs
  · obtain ⟨rfl, ho | ho⟩ := exec_ret hr <;> cases ho
    exact h _ hs
  · obtain ⟨-, ho | ho⟩ := exec_ret hr <;> cases ho

theorem triple_raise {x : X} (hI : ∀ s, Pre s → I s) (h : ∀ s, Pre s → Err x s) :
    Triple W I Pre (raise x) Post Err := by
  refine ⟨fun s hs o s' hr => ?_, fun s hs a s' hr => ?_, fun s hs y s' hr => ?_⟩
  · rw [(exec_raise hr).1]
    exact hI s hs
  · obtain ⟨-, ho | ho⟩ := exec_raise hr <;> cases ho
  · obtain ⟨rfl, ho | ho⟩ := exec_raise hr <;> cases ho
    exact h _ hs

theorem triple_hang (hI : ∀ s, Pre s → I s) :
    Triple W I Pre (hang : Process C A X α) Post Err := by
  refine ⟨fun s hs o s' hr => ?_, fun s hs a s' hr => ?_, fun s hs x s' hr => ?_⟩
  · rw [(exec_hang hr).1]
    exact hI s hs
  · cases (exec_hang hr).2
  · cases (exec_hang hr).2

theorem triple_call {c : C} {k : Except X (A c) → Process C A X α} {M : Except X (A c) → S → Prop}
    (hI : ∀ s, Pre s → I s) (hw : ∀ s r s', Pre s → W s c r s' → M r s')
    (hk : ∀ r, Triple W I (M r) (k r) Post Err) : Triple W I Pre (call c k) Post Err := by
  refine ⟨fun s hs o s' hr => ?_, fun s hs a s' hr => ?_, fun s hs x s' hr => ?_⟩
  · rcases exec_call.1 hr with ⟨-, rfl⟩ | ⟨r, s₁, h₁, h₂⟩
    · exact hI _ hs
    · exact (hk r).always s₁ (hw s r s₁ hs h₁) o s' h₂
  · rcases exec_call.1 hr with ⟨ho, -⟩ | ⟨r, s₁, h₁, h₂⟩
    · cases ho
    · exact (hk r).value s₁ (hw s r s₁ hs h₁) a s' h₂
  · rcases exec_call.1 hr with ⟨ho, -⟩ | ⟨r, s₁, h₁, h₂⟩
    · cases ho
    · exact (hk r).raised s₁ (hw s r s₁ hs h₁) x s' h₂

theorem triple_perform {c : C} {Post : A c → S → Prop} (hI : ∀ s, Pre s → I s)
    (hok : ∀ s a s', Pre s → W s c (.ok a) s' → Post a s' ∧ I s')
    (herr : ∀ s x s', Pre s → W s c (.error x) s' → Err x s' ∧ I s') :
    Triple W I Pre (perform c) Post Err := by
  refine triple_call (M := fun r s => match r with
    | .ok a => Post a s ∧ I s
    | .error x => Err x s ∧ I s) hI ?_ ?_
  · intro s r s' hs hw
    cases r with
    | ok a => exact hok s a s' hs hw
    | error x => exact herr s x s' hs hw
  · intro r
    cases r with
    | ok a => exact triple_ret (fun _ h => h.2) fun _ h => h.1
    | error x => exact triple_raise (fun _ h => h.2) fun _ h => h.1

theorem triple_bind {M : β → S → Prop} {p : Process C A X β} {f : β → Process C A X α}
    (hp : Triple W I Pre p M Err) (hf : ∀ b, Triple W I (M b) (f b) Post Err) :
    Triple W I Pre (p >>= f) Post Err := by
  refine ⟨fun s hs o s' hr => ?_, fun s hs a s' hr => ?_, fun s hs x s' hr => ?_⟩
  · rcases exec_bind hr with ⟨b, s₁, h₁, h₂⟩ | ⟨x, rfl, h₁⟩ | ⟨rfl, h₁⟩
    · exact (hf b).always s₁ (hp.value s hs b s₁ h₁) o s' h₂
    · exact hp.always s hs _ s' h₁
    · exact hp.always s hs _ s' h₁
  · rcases exec_bind hr with ⟨b, s₁, h₁, h₂⟩ | ⟨x, ho, h₁⟩ | ⟨ho, h₁⟩
    · exact (hf b).value s₁ (hp.value s hs b s₁ h₁) a s' h₂
    · cases ho
    · cases ho
  · rcases exec_bind hr with ⟨b, s₁, h₁, h₂⟩ | ⟨y, ho, h₁⟩ | ⟨ho, h₁⟩
    · exact (hf b).raised s₁ (hp.value s hs b s₁ h₁) x s' h₂
    · cases ho
      exact hp.raised s hs x s' h₁
    · cases ho

theorem triple_handle {M : X → S → Prop} {p : Process C A X α} {h : X → Process C A X α}
    (hp : Triple W I Pre p Post M) (hh : ∀ x, Triple W I (M x) (h x) Post Err) :
    Triple W I Pre (p.handle h) Post Err := by
  induction p generalizing Pre with
  | ret a =>
    exact triple_ret (fun s hs => hp.start hs) fun s hs => hp.value s hs a s (.ret a s)
  | raise x =>
    exact (hh x).consequence (fun s hs => hp.raised s hs x s (.raise x s)) (fun _ _ h => h)
      fun _ _ h => h
  | hang => exact triple_hang fun s hs => hp.start hs
  | call c k ih =>
    refine triple_call (M := fun r s' => ∃ s, Pre s ∧ W s c r s') (fun s hs => hp.start hs)
      (fun s r s' hs hw => ⟨s, hs, hw⟩) fun r => ih r ⟨?_, ?_, ?_⟩
    · rintro s₁ ⟨s, hs, hw⟩ o s' hr
      exact hp.always s hs o s' (.call hw hr)
    · rintro s₁ ⟨s, hs, hw⟩ a s' hr
      exact hp.value s hs a s' (.call hw hr)
    · rintro s₁ ⟨s, hs, hw⟩ x s' hr
      exact hp.raised s hs x s' (.call hw hr)

theorem triple_ensure {M : Outcome X α → S → Prop} {p : Process C A X α} {q : Process C A X Unit}
    (hp : Triple W I Pre p (fun a => M (.value a)) fun x => M (.raised x))
    (hq : ∀ a, Triple W I (M (.value a)) q (fun _ => Post a) Err)
    (hx : ∀ x, Triple W I (M (.raised x)) q (fun _ => Err x) Err) :
    Triple W I Pre (p.ensure q) Post Err := by
  induction p generalizing Pre with
  | ret a =>
    have hqa := (hq a).consequence (fun s hs => hp.value s hs a s (.ret a s)) (fun _ _ h => h)
      (fun _ _ h => h)
    exact (triple_bind (hqa.last.consequence (fun _ h => h) (fun _ _ h => h) fun _ _ h => h.1)
      fun _ => triple_ret (fun _ h => h.2) fun _ h => h.1)
  | raise x =>
    have hqx := (hx x).consequence (fun s hs => hp.raised s hs x s (.raise x s)) (fun _ _ h => h)
      (fun _ _ h => h)
    exact (triple_bind (hqx.last.consequence (fun _ h => h) (fun _ _ h => h) fun _ _ h => h.1)
      fun _ => triple_raise (fun _ h => h.2) fun _ h => h.1)
  | hang => exact triple_hang fun s hs => hp.start hs
  | call c k ih =>
    refine triple_call (M := fun r s' => ∃ s, Pre s ∧ W s c r s') (fun s hs => hp.start hs)
      (fun s r s' hs hw => ⟨s, hs, hw⟩) fun r => ih r ⟨?_, ?_, ?_⟩
    · rintro s₁ ⟨s, hs, hw⟩ o s' hr
      exact hp.always s hs o s' (.call hw hr)
    · rintro s₁ ⟨s, hs, hw⟩ a s' hr
      exact hp.value s hs a s' (.call hw hr)
    · rintro s₁ ⟨s, hs, hw⟩ x s' hr
      exact hp.raised s hs x s' (.call hw hr)

theorem triple_ite {c : Prop} {_ : Decidable c} {p q : Process C A X α}
    (hp : c → Triple W I Pre p Post Err) (hq : ¬c → Triple W I Pre q Post Err) :
    Triple W I Pre (if c then p else q) Post Err := by
  split_ifs with h
  · exact hp h
  · exact hq h

theorem triple_foldlM_append {J : List α → β → S → Prop} {f : β → α → Process C A X β}
    {l : List α} (done : List α) (hI : ∀ d b s, J d b s → I s)
    (hf : ∀ pre a post b, done ++ l = pre ++ a :: post →
      Triple W I (J pre b) (f b a) (J (pre ++ [a])) Err) (b : β) :
    Triple W I (J done b) (l.foldlM f b) (J (done ++ l)) Err := by
  induction l generalizing done b with
  | nil => exact triple_ret (hI done b) fun s h => by simpa using h
  | cons a l ih =>
    rw [List.foldlM_cons]
    refine triple_bind (hf done a l b rfl) fun b' => ?_
    simpa using ih (done ++ [a]) (fun pre a' post b he => hf pre a' post b (by simpa using he)) b'

/-- Loop rule whose invariant refers to the elements that are done. -/
theorem triple_foldlM {J : List α → β → S → Prop} {f : β → α → Process C A X β} {l : List α}
    (hI : ∀ d b s, J d b s → I s) (hf : ∀ pre a post b, l = pre ++ a :: post →
      Triple W I (J pre b) (f b a) (J (pre ++ [a])) Err) (b : β) :
    Triple W I (J [] b) (l.foldlM f b) (J l) Err :=
  triple_foldlM_append [] hI hf b

/-! ### Interleaving -/

/-- Processes that run side by side over one state. -/
structure Pool (ι S C : Type) (A : C → Type) (X α : Type) where
  process : ι → Process C A X α
  shared : S

variable {ι : Type} [DecidableEq ι]

/-- One call of one process, or a step of the surroundings. -/
inductive Pool.Step (W : ι → World S C A X) (V : S → S → Prop) :
    Pool ι S C A X α → Pool ι S C A X α → Prop
  | call {P : Pool ι S C A X α} (i : ι) {c : C} {k : Except X (A c) → Process C A X α}
      {r : Except X (A c)} {s' : S} (hi : P.process i = .call c k) (hw : W i P.shared c r s') :
      Pool.Step W V P ⟨Function.update P.process i (k r), s'⟩
  | env {P : Pool ι S C A X α} {s' : S} (hv : V P.shared s') : Pool.Step W V P ⟨P.process, s'⟩

/-- Every state of an interleaved run. -/
abbrev Pool.Reach (W : ι → World S C A X) (V : S → S → Prop) :
    Pool ι S C A X α → Pool ι S C A X α → Prop :=
  Relation.ReflTransGen (Pool.Step W V)

/-- As long as the state satisfies `R` whenever the process is answered, it only makes calls
that satisfy `G`, in every order of the others' steps. -/
def Respects (W : World S C A X) (R : S → Prop) (G : C → Prop) : Process C A X α → Prop
  | ret _ => True
  | raise _ => True
  | hang => True
  | call c k => G c ∧ ∀ s r s', R s → W s c r s' → Respects W R G (k r)

variable {R : S → Prop} {G : C → Prop}

theorem respects_pure (a : α) : Respects W R G (pure a : Process C A X α) := trivial

theorem respects_raise (x : X) : Respects W R G (raise x : Process C A X α) := trivial

theorem respects_bind {p : Process C A X α} {f : α → Process C A X β} (hp : Respects W R G p)
    (hf : ∀ a, Respects W R G (f a)) : Respects W R G (p >>= f) := by
  induction p with
  | ret a => exact hf a
  | raise x => trivial
  | hang => trivial
  | call c k ih => exact ⟨hp.1, fun s r s' hs hw => ih r (hp.2 s r s' hs hw)⟩

/-- As long as the state satisfies `R` whenever the process is answered, the value that it
returns satisfies `M`. -/
def Yields (W : World S C A X) (R : S → Prop) (M : α → Prop) : Process C A X α → Prop
  | ret a => M a
  | raise _ => True
  | hang => True
  | call c k => ∀ s r s', R s → W s c r s' → Yields W R M (k r)

theorem yields_true (p : Process C A X α) : Yields W R (fun _ => True) p := by
  induction p with
  | ret a => trivial
  | raise x => trivial
  | hang => trivial
  | call c k ih => exact fun _ r _ _ _ => ih r

theorem Yields.mono {M N : α → Prop} {p : Process C A X α} (h : Yields W R M p)
    (hMN : ∀ a, M a → N a) : Yields W R N p := by
  induction p with
  | ret a => exact hMN a h
  | raise x => trivial
  | hang => trivial
  | call c k ih => exact fun s r s' hs hw => ih r (h s r s' hs hw)

theorem yields_perform {c : C} {M : A c → Prop} (h : ∀ s a s', R s → W s c (.ok a) s' → M a) :
    Yields W R M (perform c) := by
  intro s r s' hs hw
  cases r with
  | ok a => exact h s a s' hs hw
  | error x => trivial

theorem yields_bind {N : β → Prop} {M : α → Prop} {p : Process C A X β}
    {f : β → Process C A X α} (hp : Yields W R N p) (hf : ∀ b, N b → Yields W R M (f b)) :
    Yields W R M (p >>= f) := by
  induction p with
  | ret b => exact hf b hp
  | raise x => trivial
  | hang => trivial
  | call c k ih => exact fun s r s' hs hw => ih r (hp s r s' hs hw)

theorem yields_handle {M : α → Prop} {p : Process C A X α} {h : X → Process C A X α}
    (hp : Yields W R M p) (hh : ∀ x, Yields W R M (h x)) : Yields W R M (p.handle h) := by
  induction p with
  | ret a => exact hp
  | raise x => exact hh x
  | hang => trivial
  | call c k ih => exact fun s r s' hs hw => ih r (hp s r s' hs hw)

/-- What a process yields whatever it is answered, it yields when it is run alone. -/
theorem Yields.triple {M : α → Prop} {p : Process C A X α} (h : Yields W (fun _ => True) M p) :
    Triple W (fun _ => True) (fun _ => True) p (fun a _ => M a) fun _ _ => True := by
  induction p with
  | ret a => exact triple_ret (fun _ _ => trivial) fun _ _ => h
  | raise x => exact triple_raise (fun _ _ => trivial) fun _ _ => trivial
  | hang => exact triple_hang fun _ _ => trivial
  | call c k ih =>
    apply triple_call (M := fun r _ => Yields W (fun _ => True) M (k r))
    · exact fun _ _ => trivial
    · exact fun s r s' _ hw => h s r s' trivial hw
    · exact fun r => triple_intro fun _ hr => (ih r hr).consequence (fun _ _ => trivial)
        (fun _ _ h => h) fun _ _ h => h

/-- What follows may use what is known of the value. -/
theorem respects_bind_of_yields {M : β → Prop} {p : Process C A X β} {f : β → Process C A X α}
    (hp : Respects W R G p) (hM : Yields W R M p) (hf : ∀ b, M b → Respects W R G (f b)) :
    Respects W R G (p >>= f) := by
  induction p with
  | ret b => exact hf b hM
  | raise x => trivial
  | hang => trivial
  | call c k ih => exact ⟨hp.1, fun s r s' hs hw => ih r (hp.2 s r s' hs hw) (hM s r s' hs hw)⟩

theorem respects_perform {c : C} (hc : G c) : Respects W R G (perform c) := by
  refine ⟨hc, fun s r s' _ _ => ?_⟩
  cases r <;> trivial

/-- What follows a call may use what the state says about its answer. -/
theorem respects_perform_bind {c : C} {f : A c → Process C A X α} (hc : G c)
    (hf : ∀ s a s', R s → W s c (.ok a) s' → Respects W R G (f a)) :
    Respects W R G (perform c >>= f) := by
  refine ⟨hc, fun s r s' hs hw => ?_⟩
  cases r with
  | ok a => exact hf s a s' hs hw
  | error x => trivial

theorem respects_handle {p : Process C A X α} {h : X → Process C A X α} (hp : Respects W R G p)
    (hh : ∀ x, Respects W R G (h x)) : Respects W R G (p.handle h) := by
  induction p with
  | ret a => trivial
  | raise x => exact hh x
  | hang => trivial
  | call c k ih => exact ⟨hp.1, fun s r s' hs hw => ih r (hp.2 s r s' hs hw)⟩

theorem respects_foldlM {f : β → α → Process C A X β} {l : List α}
    (hf : ∀ b, ∀ a ∈ l, Respects W R G (f b a)) (b : β) : Respects W R G (l.foldlM f b) := by
  induction l generalizing b with
  | nil => trivial
  | cons a l ih =>
    rw [List.foldlM_cons]
    exact respects_bind (hf b a List.mem_cons_self)
      fun b' => ih (fun b a ha => hf b a (List.mem_cons_of_mem _ ha)) b'

theorem respects_ensure {p : Process C A X α} {q : Process C A X Unit} (hp : Respects W R G p)
    (hq : Respects W R G q) : Respects W R G (p.ensure q) := by
  induction p with
  | ret a => exact respects_bind hq fun _ => trivial
  | raise x => exact respects_bind hq fun _ => trivial
  | hang => trivial
  | call c k ih => exact ⟨hp.1, fun s r s' hs hw => ih r (hp.2 s r s' hs hw)⟩

theorem respects_ite {c : Prop} {_ : Decidable c} {p q : Process C A X α}
    (hp : c → Respects W R G p) (hq : ¬c → Respects W R G q) :
    Respects W R G (if c then p else q) := by
  split_ifs with h
  · exact hp h
  · exact hq h

theorem respects_true (p : Process C A X α) : Respects W R (fun _ => True) p := by
  induction p with
  | ret a => trivial
  | raise x => trivial
  | hang => trivial
  | call c k ih => exact ⟨trivial, fun _ r _ _ _ => ih r⟩

theorem Respects.mono {G' : C → Prop} {p : Process C A X α} (h : Respects W R G p)
    (hG : ∀ c, G c → G' c) : Respects W R G' p := by
  induction p with
  | ret a => trivial
  | raise x => trivial
  | hang => trivial
  | call c k ih => exact ⟨hG c h.1, fun s r s' hs hw => ih r (h.2 s r s' hs hw)⟩

/-- Run alone, a process keeps an invariant that its calls keep. -/
theorem Respects.triple {p : Process C A X α} (h : Respects W R G p)
    (hG : ∀ s c r s', R s → G c → W s c r s' → R s') :
    Triple W R R p (fun _ => R) (fun _ => R) := by
  induction p with
  | ret a => exact triple_ret (fun _ hs => hs) fun _ hs => hs
  | raise x => exact triple_raise (fun _ hs => hs) fun _ hs => hs
  | hang => exact triple_hang fun _ hs => hs
  | call c k ih =>
    refine triple_call (M := fun r s' => R s' ∧ ∃ s, R s ∧ W s c r s') (fun _ hs => hs)
      (fun s r s' hs hw => ⟨hG s c r s' hs h.1 hw, s, hs, hw⟩) fun r => triple_intro ?_
    rintro s' ⟨hs', s, hs, hw⟩
    exact (ih r (h.2 s r s' hs hw)).consequence (fun _ he => he ▸ hs') (fun _ _ h => h)
      fun _ _ h => h

/-- Calls that satisfy `G` keep `R` if every process respects them, whatever the order. -/
theorem Pool.Reach.respects {W : ι → World S C A X} {V : S → S → Prop}
    (hG : ∀ i s c r s', R s → G c → W i s c r s' → R s') (hV : ∀ s s', R s → V s s' → R s')
    {P Q : Pool ι S C A X α} (hPQ : Pool.Reach W V P Q) (hR : R P.shared)
    (hP : ∀ i, Respects (W i) R G (P.process i)) :
    R Q.shared ∧ ∀ i, Respects (W i) R G (Q.process i) := by
  induction hPQ with
  | refl => exact ⟨hR, hP⟩
  | tail _ hstep ih =>
    obtain ⟨hR, hP⟩ := ih
    cases hstep with
    | @call i c k r s' hi hw =>
      have hc := hP i
      rw [hi] at hc
      refine ⟨hG i _ c r _ hR hc.1 hw, fun j => ?_⟩
      by_cases hj : j = i
      · subst hj
        simpa using hc.2 _ r _ hR hw
      · simpa [Function.update_of_ne hj] using hP j
    | env hv => exact ⟨hV _ _ hR hv, hP⟩

/-- A run of one process is an interleaved run in which the others wait. -/
theorem Exec.reach {W : ι → World S C A X} {V : S → S → Prop} {i : ι} {p : Process C A X α}
    {s s' : S} {o : Outcome X α} (h : Exec (W i) p s o s') {P : Pool ι S C A X α}
    (hp : P.process i = p) (hs : P.shared = s) :
    ∃ Q, Pool.Reach W V P Q ∧ Q.shared = s' ∧ ∀ j, j ≠ i → Q.process j = P.process j := by
  induction h generalizing P with
  | stop => exact ⟨P, .refl, hs, fun _ _ => rfl⟩
  | ret => exact ⟨P, .refl, hs, fun _ _ => rfl⟩
  | raise => exact ⟨P, .refl, hs, fun _ _ => rfl⟩
  | @call c k r s s₁ s' o hw _ ih =>
    subst hs
    have hstep : Pool.Step W V P ⟨Function.update P.process i (k r), s₁⟩ := .call i hp hw
    obtain ⟨Q, hQ, hshared, hj⟩ :=
      ih (P := ⟨Function.update P.process i (k r), s₁⟩) (by simp) rfl
    refine ⟨Q, .head hstep hQ, hshared, fun j hne => ?_⟩
    rw [hj j hne]
    exact Function.update_of_ne hne _ _

end Process

end Yggdrasil.Effect
