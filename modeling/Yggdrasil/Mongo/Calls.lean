import Yggdrasil.Mongo.Tasks

/-! What the parts of the controller do to the database and to the log: the rule of one
call, which calls write, and the calls each part makes. -/

namespace Yggdrasil.Mongo

open Effect Effect.Process

/-! ### One call -/

section Triple

variable {I Pre : Run → Prop} {Err : Error → Run → Prop}

theorem triple_rejectIf {c : Prop} [Decidable c] {r : Rejection} {Post : Unit → Run → Prop}
    (hI : ∀ s, Pre s → I s) (hok : ∀ s, Pre s → ¬c → Post () s)
    (herr : ∀ s, Pre s → c → Err (.rejected r) s) :
    Triple world I Pre (rejectIf c r) Post Err :=
  triple_ite (fun hc => triple_raise hI fun s hs => herr s hs hc)
    fun hc => triple_ret hI fun s hs => hok s hs hc

theorem triple_ofExcept {α : Type} {r : Except Error α} {Post : α → Run → Prop}
    (hI : ∀ s, Pre s → I s) (hok : ∀ s a, Pre s → r = .ok a → Post a s)
    (herr : ∀ s x, Pre s → r = .error x → Err x s) :
    Triple world I Pre (ofExcept r) Post Err := by
  cases r with
  | ok a => exact triple_ret hI fun s hs => hok s a hs rfl
  | error x => exact triple_raise hI fun s hs => herr s x hs rfl

theorem triple_forEach {α : Type} {J : List α → Run → Prop} {f : α → Action Unit} {l : List α}
    (hI : ∀ d s, J d s → I s) (hf : ∀ pre a post, l = pre ++ a :: post →
      Triple world I (J pre) (f a) (fun _ => J (pre ++ [a])) Err) :
    Triple world I (J []) (forEach l f) (fun _ => J l) Err :=
  triple_foldlM (J := fun d _ => J d) (fun d _ s => hI d s)
    (fun pre a post _ he => hf pre a post he) ()

theorem triple_collect {α β : Type} {J : List α → List β → Run → Prop} {f : α → Action β}
    {l : List α} (hI : ∀ d bs s, J d bs s → I s) (hf : ∀ pre a post bs, l = pre ++ a :: post →
      Triple world I (J pre bs) (f a) (fun b => J (pre ++ [a]) (bs ++ [b])) Err) :
    Triple world I (J [] []) (collect f l) (J l) Err :=
  triple_foldlM (J := J) hI (fun pre a post bs he => triple_bind (hf pre a post bs he) fun _ =>
    triple_ret (hI _ _) fun _ h => h) []

theorem triple_ask {c : Call} {Post : c.Answer → Run → Prop} (hI : ∀ s, Pre s → I s)
    (hok : ∀ s a db, Pre s → s.db.Step c a db →
      Post a ⟨db, s.log ++ [⟨c, .ok a⟩]⟩ ∧ I ⟨db, s.log ++ [⟨c, .ok a⟩]⟩)
    (herr : ∀ s x, Pre s → (∀ r, x ≠ .rejected r) →
      Err x ⟨s.db, s.log ++ [⟨c, .error x⟩]⟩ ∧ I ⟨s.db, s.log ++ [⟨c, .error x⟩]⟩) :
    Triple world I Pre (ask c) Post Err := by
  refine triple_perform hI ?_ ?_
  · rintro s a ⟨db, log⟩ hs ⟨hstep, hlog⟩
    dsimp only at hstep hlog
    subst hlog
    exact hok s a db hs hstep
  · rintro s x ⟨db, log⟩ hs ⟨hx, hdb, hlog⟩
    dsimp only at hdb hlog
    subst hdb hlog
    exact herr s x hs hx

end Triple

/-- The calls that change the database. -/
def Call.writes : Call → Bool
  | .createCluster _ => true
  | .createInstance _ => true
  | .updateDb .. => true
  | .resetTask _ => true
  | .detach _ => true
  | .delete _ => true
  | _ => false

theorem Database.Step.eq_of_not_writes {db db' : Database} {c : Call} {a : c.Answer}
    (h : db.Step c a db') (hc : c.writes = false) : db' = db := by
  cases c <;> simp only [Database.Step, Call.writes, reduceCtorEq] at h hc <;> first
    | exact h
    | exact h.2
    | exact h.2.2

/-- A call that does not write leaves the database alone. -/
theorem world_reads {s s' : Run} {c : Call} {r : Except Error c.Answer} (h : world s c r s')
    (hc : c.writes = false) : s'.db = s.db := by
  cases r with
  | ok a => exact h.1.eq_of_not_writes hc
  | error x => exact h.2.1

/-- No call removes a cluster. -/
theorem Database.Step.mem_clusters {db db' : Database} {c : Call} {a : c.Answer}
    (h : db.Step c a db') {id : String} (hid : id ∈ db.clusters.map Cluster.id) :
    id ∈ db'.clusters.map Cluster.id := by
  cases hw : c.writes with
  | false => rwa [h.eq_of_not_writes hw]
  | true =>
    have hset : ∀ cluster status, id ∈ (db.setStatus cluster status).clusters.map Cluster.id := by
      intro cluster status
      obtain ⟨row, hrow, rfl⟩ := List.mem_map.1 hid
      refine List.mem_map.2 ⟨_, List.mem_map_of_mem hrow, ?_⟩
      split_ifs <;> rfl
    cases c with
    | createCluster new =>
      rw [h.2]
      obtain ⟨row, hrow, rfl⟩ := List.mem_map.1 hid
      exact List.mem_map_of_mem (List.mem_append_left _ hrow)
    | createInstance new => rwa [h.2]
    | updateDb cluster status =>
      rw [h]
      exact hset _ _
    | resetTask cluster =>
      rw [h]
      exact hset _ _
    | detach i => rwa [h]
    | delete i => rwa [h]
    | _ => cases hw

theorem world_mem_clusters {s s' : Run} {c : Call} {r : Except Error c.Answer} (h : world s c r s')
    {id : String} (hid : id ∈ s.db.clusters.map Cluster.id) :
    id ∈ s'.db.clusters.map Cluster.id := by
  cases r with
  | ok a => exact h.1.mem_clusters hid
  | error x => rwa [h.2.1]

theorem world_log {s s' : Run} {c : Call} {r : Except Error c.Answer} (h : world s c r s') :
    s'.log = s.log ++ [⟨c, r⟩] := by
  cases r with
  | ok a => exact h.2
  | error x => exact h.2.2

/-- What the log says stays said. -/
theorem triple_keeps_log {α : Type} (p : Action α) {P : List Event → Prop}
    (hP : ∀ log e, P log → P (log ++ [e])) :
    Triple world (fun s => P s.log) (fun s => P s.log) p (fun _ s => P s.log) fun _ s => P s.log :=
  (respects_true p).triple fun s c r s' hs _ hw => by
    rw [world_log hw]
    exact hP _ _ hs

/-- A process that only makes reading calls. -/
theorem triple_reads {α : Type} {p : Action α} {db : Database}
    (h : Respects world (fun s => s.db = db) (fun c => c.writes = false) p) :
    Triple world (fun s => s.db = db) (fun s => s.db = db) p (fun _ s => s.db = db)
      fun _ s => s.db = db :=
  h.triple fun _ _ _ _ hs hc hw => (world_reads hw hc).trans hs

/-! ### The calls of each part -/

section Respects

variable {S : Type} {W : World S Call Call.Answer Error} {R : S → Prop} {G : Call → Prop}

theorem respects_ask {c : Call} (hc : G c) : Respects W R G (ask c) := respects_perform hc

theorem respects_ofExcept {α : Type} (r : Except Error α) : Respects W R G (ofExcept r) := by
  cases r <;> trivial

theorem respects_rejectIf (c : Prop) [Decidable c] (r : Rejection) :
    Respects W R G (rejectIf c r) :=
  respects_ite (fun _ => trivial) fun _ => trivial

theorem respects_collect {α β : Type} {f : α → Action β} {l : List α}
    (hf : ∀ a ∈ l, Respects W R G (f a)) : Respects W R G (collect f l) :=
  respects_foldlM (fun _ a ha => respects_bind (hf a ha) fun _ => respects_pure _) []

theorem respects_forEach {α : Type} {f : α → Action Unit} {l : List α}
    (hf : ∀ a ∈ l, Respects W R G (f a)) : Respects W R G (forEach l f) :=
  respects_foldlM (fun _ a ha => hf a ha) ()

theorem respects_exceptException {α : Type} {p : Action α} {h : Error → Action α}
    (hp : Respects W R G p) (hh : ∀ x, Respects W R G (h x)) :
    Respects W R G (exceptException p h) := by
  refine respects_handle hp fun x => ?_
  cases x with
  | timeout own => trivial
  | _ => exact hh _

theorem respects_check {c : Check} (hc : G (.check c)) : Respects W R G (check c) := by
  refine respects_bind (respects_ask hc) fun verdict => ?_
  cases verdict <;> trivial

theorem respects_requiredVolumeSize {sizes : List (Option ℤ)} {volumeSupport : Bool}
    (hc : G (.requiredVolumeSize sizes volumeSupport)) :
    Respects W R G (requiredVolumeSize sizes volumeSupport) := by
  refine respects_bind (respects_ask hc) fun answer => ?_
  cases answer <;> trivial

theorem respects_createAll {news : List NewInstance}
    (hG : ∀ new ∈ news, G (.createInstance new)) : Respects W R G (createAll news) :=
  respects_collect (β := String) (f := fun new => ask (.createInstance new))
    (fun new hnew => respects_ask (hG new hnew))

/-- The calls that validate requested members. -/
def Call.validates : Call → Bool
  | .check (.configuration ..) => false
  | .check _ => true
  | .requiredVolumeSize .. => true
  | _ => false

theorem respects_validateShardMembers (members : List Node) (conf : MongoConf) :
    Respects W R (fun c => c.validates = true) (validateShardMembers members conf) := by
  unfold validateShardMembers
  refine respects_bind (respects_rejectIf _ _) fun _ => respects_bind (respects_check rfl) fun _ => ?_
  exact respects_bind (respects_check rfl) fun _ => respects_check rfl

theorem respects_validateMembers (r : MembersRequest) :
    Respects W R (fun c => c.validates = true) (validateMembers r) := by
  unfold validateMembers
  refine respects_bind (respects_rejectIf _ _) fun _ => respects_bind (respects_rejectIf _ _) fun _ => ?_
  refine respects_bind (respects_check rfl) fun _ => respects_bind (respects_check rfl) fun _ => ?_
  refine respects_bind (respects_check rfl) fun _ => ?_
  exact respects_bind (respects_requiredVolumeSize rfl) fun _ => respects_check rfl

theorem respects_findConfiguration (configurationId : Option String) (versionId : String)
    (hG : ∀ id version, G (.check (.configuration id version))) :
    Respects W R G (findConfiguration configurationId versionId) := by
  cases configurationId with
  | none => trivial
  | some id => exact respects_check (hG _ _)

theorem Call.not_writes_of_validates {c : Call} (h : c.validates = true) : c.writes = false := by
  cases c <;> simp_all [validates, writes]

/-- Validating a sharded request writes nothing. -/
theorem respects_validateSharded (r : CreateRequest) :
    Respects W R (fun c => c.writes = false) (validateSharded r) := by
  unfold validateSharded
  refine respects_bind (respects_rejectIf _ _) fun _ => ?_
  refine respects_bind ((respects_validateShardMembers _ _).mono
    fun _ => Call.not_writes_of_validates) fun _ => ?_
  refine respects_bind (respects_ofExcept _) fun _ => respects_bind (respects_ofExcept _) fun _ => ?_
  refine respects_bind ?_ fun _ => ?_
  · cases r.instances <;> trivial
  refine respects_bind (respects_ofExcept _) fun _ => respects_bind (respects_ofExcept _) fun _ => ?_
  refine respects_bind (respects_requiredVolumeSize rfl) fun _ => ?_
  refine respects_bind (respects_check rfl) fun _ => ?_
  exact respects_bind (respects_findConfiguration _ _ fun _ _ => rfl) fun _ => respects_pure _

end Respects

/-! ### What a check lets through -/

section Yields

variable {S : Type} {W : World S Call Call.Answer Error} {R : S → Prop}

theorem yields_ofExcept {α : Type} {M : α → Prop} {r : Except Error α}
    (h : ∀ a, r = .ok a → M a) : Yields W R M (ofExcept r) := by
  cases r with
  | ok a => exact h a rfl
  | error x => trivial

theorem yields_rejectIf {c : Prop} [Decidable c] {r : Rejection} :
    Yields W R (fun _ => ¬c) (rejectIf c r) := by
  unfold rejectIf
  split_ifs with h
  · trivial
  · exact h

/-- A loop of checks that ends has let every element through. -/
theorem yields_forEach {α : Type} {M : α → Prop} {f : α → Action Unit} {l : List α}
    (hf : ∀ a ∈ l, Yields W R (fun _ => M a) (f a)) :
    Yields W R (fun _ => ∀ a ∈ l, M a) (forEach l f) := by
  unfold forEach
  induction l with
  | nil =>
    intro a ha
    cases ha
  | cons a l ih =>
    rw [List.foldlM_cons]
    apply yields_bind (hf a List.mem_cons_self)
    intro _ ha
    apply (ih fun b hb => hf b (List.mem_cons_of_mem _ hb)).mono
    intro _ hl b hb
    rcases List.mem_cons.1 hb with rfl | hb
    · exact ha
    · exact hl b hb

theorem yields_collect {α β : Type} {N : α → β → Prop} {f : α → Action β} {l : List α}
    (hf : ∀ a ∈ l, Yields W R (N a) (f a)) : Yields W R (List.Forall₂ N l) (collect f l) := by
  have hloop : ∀ done : List β, Yields W R (fun bs => ∃ new, bs = done ++ new ∧ List.Forall₂ N l new)
      (l.foldlM (fun done a => do
        let b ← f a
        pure (done ++ [b])) done) := by
    induction l with
    | nil => exact fun done => ⟨[], (List.append_nil done).symm, .nil⟩
    | cons a l ih =>
      intro done
      rw [List.foldlM_cons]
      have hstep : Yields W R (fun bs => ∃ b, N a b ∧ bs = done ++ [b]) (do
          let b ← f a
          pure (done ++ [b])) := yields_bind (hf a List.mem_cons_self) fun b hb => ⟨b, hb, rfl⟩
      apply yields_bind hstep
      rintro _ ⟨b, hb, rfl⟩
      apply (ih (fun a' ha' => hf a' (List.mem_cons_of_mem _ ha')) (done ++ [b])).mono
      rintro _ ⟨new, rfl, hnew⟩
      exact ⟨b :: new, List.append_assoc _ _ _, .cons hb hnew⟩
  apply (hloop []).mono
  rintro _ ⟨new, rfl, hnew⟩
  exact hnew

end Yields

/-! ### Exceptions -/

/-- What the process raises satisfies `Q`, together with the log of its run. -/
def Raises {α : Type} (Q : Error → List Event → Prop) (p : Action α) : Prop :=
  Triple world (fun _ => True) (fun _ => True) p (fun _ _ => True) fun x s => Q x s.log

/-- What holds of the exceptions that calls are answered with and of failures. -/
class Unplanned (Q : Error → List Event → Prop) : Prop where
  answer : ∀ c x log, (∀ r, x ≠ .rejected r) → Q x (log ++ [⟨c, .error x⟩])
  failed : ∀ message log, Q (.failed message) log

section Raises

variable {α β : Type} {Q : Error → List Event → Prop}

theorem raises_pure (a : α) : Raises Q (pure a) :=
  triple_ret (fun _ _ => trivial) fun _ _ => trivial

theorem raises_bind {p : Action α} {f : α → Action β} (hp : Raises Q p) (hf : ∀ a, Raises Q (f a)) :
    Raises Q (p >>= f) := triple_bind hp hf

theorem raises_hang : Raises Q (.hang : Action α) := triple_hang fun _ _ => trivial

theorem raises_ite {c : Prop} {_ : Decidable c} {p q : Action α} (hp : Raises Q p) (hq : Raises Q q) :
    Raises Q (if c then p else q) :=
  triple_ite (fun _ => hp) fun _ => hq

theorem raises_forEach {f : α → Action Unit} (hf : ∀ a, Raises Q (f a)) (l : List α) :
    Raises Q (forEach l f) :=
  triple_forEach (J := fun _ _ => True) (fun _ _ _ => trivial) fun _ a _ _ => hf a

theorem raises_collect {f : α → Action β} (hf : ∀ a, Raises Q (f a)) (l : List α) :
    Raises Q (collect f l) :=
  triple_collect (J := fun _ _ _ => True) (fun _ _ _ _ => trivial) fun _ a _ _ _ => hf a

theorem raises_exceptException {p : Action α} {h : Error → Action α} (hp : Raises Q p)
    (hh : ∀ x, Raises Q (h x)) : Raises Q (exceptException p h) := by
  refine triple_handle hp fun x => ?_
  cases x with
  | timeout own => exact triple_raise (fun _ _ => trivial) fun _ h => h
  | _ => exact (hh _).consequence (fun _ _ => trivial) (fun _ _ h => h) fun _ _ h => h

variable [Unplanned Q]

theorem raises_ask (c : Call) : Raises Q (ask c) :=
  triple_ask (fun _ _ => trivial) (fun _ _ _ _ _ => ⟨trivial, trivial⟩) fun s x _ hx =>
    ⟨Unplanned.answer c x s.log hx, trivial⟩

theorem raises_fail (message : String) : Raises Q (fail message : Action α) :=
  triple_raise (fun _ _ => trivial) fun s _ => Unplanned.failed message s.log

end Raises

/-- Only the validation of a request rejects it. -/
def NoRejection (x : Error) (_ : List Event) : Prop := ∀ r, x ≠ .rejected r

instance : Unplanned NoRejection where
  answer _ _ _ hx := hx
  failed _ _ _ h := by cases h

/-- The process never raises a rejection. -/
abbrev NeverRejects {α : Type} (p : Action α) : Prop := Raises NoRejection p

theorem neverRejects_createAll (news : List NewInstance) : NeverRejects (createAll news) :=
  raises_collect (β := String) (f := fun new => ask (.createInstance new)) (fun _ => raises_ask _)
    news

theorem neverRejects_ensure {α : Type} {p : Action α} {q : Action Unit} (hp : NeverRejects p)
    (hq : NeverRejects q) : NeverRejects (p.ensure q) :=
  triple_ensure (M := fun (o : Outcome Error α) _ => ∀ x, o = .raised x → NoRejection x [])
    (hp.consequence (fun _ h => h) (fun _ _ _ _ h => by cases h)
      fun _ _ hx _ h => by cases h; exact hx)
    (fun _ => hq.consequence (fun _ _ => trivial) (fun _ _ h => h) fun _ _ h => h)
    fun x => triple_intro fun _ hs => hq.consequence (fun _ _ => trivial)
      (fun _ _ _ => hs x rfl) fun _ _ h => h

/-- Whatever is raised inside, a handler that does not reject leaves no rejection. -/
theorem neverRejects_exceptException {α : Type} (p : Action α) {h : Error → Action α}
    (hh : ∀ x, NeverRejects (h x)) : NeverRejects (exceptException p h) := by
  refine triple_handle (M := fun _ _ => True) triple_true fun x => ?_
  cases x with
  | timeout own => exact triple_raise (fun _ _ => trivial) fun _ _ r h => by cases h
  | _ => exact hh _

end Yggdrasil.Mongo
