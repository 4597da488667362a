import Yggdrasil.Mongo.Draining

/-! Members leave their replica set before they are deleted, as long as a step-down is
reported as one: a guest whose step-down prints anything else says that the members are
removed. -/

namespace Yggdrasil.Mongo

open Effect Effect.Process History Python

/-! ### The guest -/

/-- The script for the primary: it steps down if it is to be removed itself. -/
def removalScript (hello : Mapping) (members : List String) : Script :=
  if members.any fun host => hostMatches (primaryHost hello) (.str host) then .stepDown
  else .remove members

/-- What the guest makes of the output of that script. -/
def removalResult (members : List String) : Output → Value
  | .json result => result
  | .text _ => .record [("ok", .int 1), ("removed", .bool true), ("hosts", .list (members.map .str))]

def helloEvent (guest : String) (hello : Mapping) : Event :=
  ⟨.mongosh guest localHost .hello, .ok (.json (.dict hello))⟩

def scriptEvent (guest : String) (hello : Mapping) (script : Script) (output : Output) : Event :=
  ⟨.mongosh guest (mongoshHost (primaryHost hello)) script, .ok output⟩

/-- A finished removal asked its own server for the primary and ran one script there. -/
theorem triple_removeReplicaMembers (guest : String) (members : List String) (log : List Event) :
    Triple world (fun _ => True) (fun s => s.log = log) (removeReplicaMembers guest members)
      (fun v s => ∃ hello output, (primaryHost hello).truthy = true ∧
        v = removalResult members output ∧ s.log = log ++ [helloEvent guest hello,
          scriptEvent guest hello (removalScript hello members) output])
      fun _ _ => True := by
  unfold removeReplicaMembers
  have hhello : Triple world (fun _ => True) (fun s => s.log = log) (replicaHello guest)
      (fun hello s => s.log = log ++ [helloEvent guest hello]) fun _ _ => True := by
    unfold replicaHello
    apply triple_bind (M := fun (output : Output) s =>
      s.log = log ++ [⟨.mongosh guest localHost .hello, .ok output⟩])
    · apply triple_ask (fun _ _ => trivial) ?_ fun _ _ _ _ => ⟨trivial, trivial⟩
      rintro s output db rfl -
      exact ⟨rfl, trivial⟩
    · intro output
      split
      · exact triple_ret (fun _ _ => trivial) fun _ h => h
      · exact triple_raise (fun _ _ => trivial) fun _ _ => trivial
      · exact triple_raise (fun _ _ => trivial) fun _ _ => trivial
  apply triple_bind hhello
  intro hello
  apply triple_ite
  · intro htruthy
    apply triple_bind (M := fun (output : Output) s => s.log = log ++ [helloEvent guest hello,
      scriptEvent guest hello (removalScript hello members) output])
    · apply triple_ask (fun _ _ => trivial) ?_ fun _ _ _ _ => ⟨trivial, trivial⟩
      rintro s output db hlog -
      refine ⟨?_, trivial⟩
      dsimp only
      rw [hlog, List.append_assoc]
      rfl
    · intro output
      cases output with
      | json result => exact triple_ret (fun _ _ => trivial) fun _ h => ⟨hello, _, htruthy, rfl, h⟩
      | text message => exact triple_ret (fun _ _ => trivial) fun _ h => ⟨hello, _, htruthy, rfl, h⟩
  · exact fun _ => triple_raise (fun _ _ => trivial) fun _ _ => trivial

/-- Every step-down that ran was reported as one. -/
def StepDownsReported (log : List Event) : Prop :=
  ∀ guest host output, (⟨.mongosh guest host .stepDown, .ok output⟩ : Event) ∈ log →
    ∃ v, output = .json v ∧ steppedDown v = true

/-- The members were removed by a primary that is none of them. -/
def RemovedBy (guest : String) (hosts : List String) (log : List Event) : Prop :=
  ∃ hello output, helloEvent guest hello ∈ log ∧
    scriptEvent guest hello (.remove hosts) output ∈ log ∧ (primaryHost hello).truthy = true ∧
    ∀ host ∈ hosts, hostMatches (primaryHost hello) (.str host) = false

theorem RemovedBy.append {guest : String} {hosts : List String} {log : List Event}
    (h : RemovedBy guest hosts log) (e : Event) : RemovedBy guest hosts (log ++ [e]) := by
  obtain ⟨hello, output, hhello, hscript, hrest⟩ := h
  exact ⟨hello, output, List.mem_append_left _ hhello, List.mem_append_left _ hscript, hrest⟩

theorem StepDownsReported.of_append {log : List Event} {e : Event}
    (h : StepDownsReported (log ++ [e])) : StepDownsReported log :=
  fun guest host output hmem => h guest host output (List.mem_append_left _ hmem)

theorem removalScript_cases (hello : Mapping) (members : List String) :
    removalScript hello members = .stepDown ∨ (removalScript hello members = .remove members ∧
      ∀ host ∈ members, hostMatches (primaryHost hello) (.str host) = false) := by
  unfold removalScript
  by_cases h : members.any fun host => hostMatches (primaryHost hello) (.str host)
  · exact .inl (if_pos h)
  · refine .inr ⟨if_neg h, fun host hhost => ?_⟩
    rw [List.any_eq_true] at h
    cases hm : hostMatches (primaryHost hello) (.str host) with
    | false => rfl
    | true => exact absurd ⟨host, hhost, hm⟩ h

/-- A step-down ran. -/
def StepDownRan (log : List Event) : Prop :=
  ∃ guest host output, (⟨.mongosh guest host .stepDown, .ok output⟩ : Event) ∈ log

/-- The result says that the members are removed, and it is right. -/
def Truthful (guest : String) (members : List String) (v : Value) (log : List Event) : Prop :=
  steppedDown v = false → RemovedBy guest members log ∧ ¬StepDownRan log

/-- The guest tells the truth exactly if its step-down, when it runs one, is reported. -/
theorem truthful_iff (guest : String) (members : List String) (hello : Mapping) (output : Output)
    (htruthy : (primaryHost hello).truthy = true) :
    Truthful guest members (removalResult members output) [helloEvent guest hello,
        scriptEvent guest hello (removalScript hello members) output] ↔
      StepDownsReported [helloEvent guest hello,
        scriptEvent guest hello (removalScript hello members) output] := by
  have hlog : ∀ (script : Script) (g host : String) (out : Output),
      (⟨.mongosh g host .stepDown, .ok out⟩ : Event) ∈
        [helloEvent guest hello, scriptEvent guest hello script output] →
      script = .stepDown ∧ out = output := by
    intro script g host out hmem
    rcases List.mem_cons.1 hmem with hmem | hmem
    · cases hmem
    · cases List.mem_singleton.1 hmem
      exact ⟨rfl, rfl⟩
  rcases removalScript_cases hello members with hs | ⟨hs, hother⟩
  · rw [hs]
    have hran : StepDownRan [helloEvent guest hello, scriptEvent guest hello .stepDown output] :=
      ⟨_, _, _, List.mem_cons_of_mem _ (List.mem_singleton_self _)⟩
    constructor
    · intro h g host out hmem
      obtain ⟨-, rfl⟩ := hlog _ _ _ _ hmem
      cases out with
      | text message => exact absurd hran (h rfl).2
      | json v =>
        refine ⟨v, rfl, ?_⟩
        cases hv : steppedDown v with
        | true => rfl
        | false => exact absurd hran (h hv).2
    · intro h hv
      obtain ⟨v, rfl, hdown⟩ := h _ _ _ (List.mem_cons_of_mem _ (List.mem_singleton_self _))
      have hsame : steppedDown v = false := hv
      rw [hdown] at hsame
      cases hsame
  · rw [hs]
    have hnot : ∀ g host out, (⟨.mongosh g host .stepDown, .ok out⟩ : Event) ∉
        [helloEvent guest hello, scriptEvent guest hello (.remove members) output] := by
      intro g host out hmem
      cases (hlog _ _ _ _ hmem).1
    constructor
    · intro _ g host out hmem
      exact absurd hmem (hnot g host out)
    · intro _ _
      refine ⟨⟨hello, output, List.mem_cons_self, ?_, htruthy, hother⟩, ?_⟩
      · exact List.mem_cons_of_mem _ (List.mem_singleton_self _)
      · rintro ⟨g, host, out, hmem⟩
        exact hnot g host out hmem

/-! ### The controller -/

/-- As far as step-downs were reported, some guest has had the hosts removed. -/
def Removed (hosts : List String) (log : List Event) : Prop :=
  StepDownsReported log → ∃ guest, RemovedBy guest hosts log

theorem Removed.append {hosts : List String} {log : List Event} (h : Removed hosts log)
    (e : Event) : Removed hosts (log ++ [e]) := by
  intro hreported
  obtain ⟨guest, hguest⟩ := h hreported.of_append
  exact ⟨guest, hguest.append e⟩

theorem triple_removed {α : Type} (p : Action α) (hosts : List String) :
    Triple world (fun _ => True) (fun s => Removed hosts s.log) p
      (fun _ s => Removed hosts s.log) fun _ s => Removed hosts s.log :=
  (triple_keeps_log p fun _ e h => h.append e).weaken fun _ _ => trivial

/-- A result that is not a step-down means that the hosts are removed. -/
theorem triple_guest_removed (guest : String) (hosts : List String) :
    Triple world (fun _ => True) (fun _ => True) (removeReplicaMembers guest hosts)
      (fun v s => steppedDown v = false → Removed hosts s.log) fun _ _ => True := by
  apply triple_intro
  intro s₀ _
  refine (triple_removeReplicaMembers guest hosts s₀.log).consequence (fun _ he => by rw [he]) ?_
    fun _ _ h => h
  rintro v s ⟨hello, output, htruthy, rfl, hlog⟩ hv hreported
  rw [hlog] at hreported ⊢
  have hnew : StepDownsReported [helloEvent guest hello,
      scriptEvent guest hello (removalScript hello hosts) output] :=
    fun g host out hmem => hreported g host out (List.mem_append_right _ hmem)
  obtain ⟨hello', output', hhello, hscript, hrest⟩ :=
    ((truthful_iff guest hosts hello output htruthy).2 hnew hv).1
  exact ⟨guest, hello', output', List.mem_append_right _ hhello, List.mem_append_right _ hscript,
    hrest⟩

theorem triple_tryCandidates (hosts : List String) (candidates : List Instance) :
    Triple world (fun _ => True) (fun _ => True) (tryCandidates hosts candidates)
      (fun removed s => removed = true → Removed hosts s.log) fun _ _ => True := by
  induction candidates with
  | nil => exact triple_ret (fun _ _ => trivial) fun _ _ h => by cases h
  | cons candidate rest ih =>
    unfold tryCandidates
    apply triple_bind (M := fun removed s => removed = true → Removed hosts s.log)
    · apply triple_handle (M := fun _ _ => True)
      · apply triple_bind (M := fun result s => steppedDown result = false → Removed hosts s.log)
        · unfold rpc
          apply triple_bind (M := fun _ _ => True) triple_true
          intro _
          apply triple_bind (triple_guest_removed candidate.id hosts)
          intro result
          apply triple_intro
          intro s₀ hs₀
          by_cases hresult : steppedDown result = false
          · apply triple_bind (M := fun _ s => Removed hosts s.log)
            · exact (triple_removed _ hosts).consequence (fun _ he => he ▸ hs₀ hresult)
                (fun _ _ h => h) fun _ _ _ => trivial
            · exact fun _ => triple_ret (fun _ _ => trivial) fun _ h _ => h
          · apply triple_bind (M := fun _ _ => True)
            · exact triple_true.consequence (fun _ _ => trivial) (fun _ _ h => h) fun _ _ h => h
            · exact fun _ => triple_ret (fun _ _ => trivial) fun _ _ h => absurd h hresult
        · exact fun result => triple_ret (fun _ _ => trivial) fun _ h hr => h (by simpa using hr)
      · intro x
        cases x with
        | timeout own => exact triple_raise (fun _ _ => trivial) fun _ _ => trivial
        | _ => exact triple_ret (fun _ _ => trivial) fun _ _ h => by cases h
    · intro removed
      apply triple_ite
      · exact fun hr => triple_ret (fun _ _ => trivial) fun _ h _ => h hr
      · exact fun _ => ih.consequence (fun _ _ => trivial) (fun _ _ h => h) fun _ _ h => h

/-- The loop ends when a guest says that the hosts are removed. -/
theorem triple_removeMembers (hosts : List String) (candidates : List Instance) (deadline : ℤ)
    (fuel : ℕ) :
    Triple world (fun _ => True) (fun _ => True) (removeMembers hosts candidates deadline fuel)
      (fun _ s => Removed hosts s.log) fun _ _ => True := by
  induction fuel with
  | zero => exact triple_hang fun _ _ => trivial
  | succ fuel ih =>
    unfold removeMembers
    apply triple_bind (M := fun _ _ => True) triple_true
    intro now
    apply triple_ite
    · intro _
      apply triple_bind (triple_tryCandidates hosts candidates)
      intro removed
      apply triple_ite
      · exact fun hr => triple_ret (fun _ _ => trivial) fun _ h => h hr
      · intro _
        apply triple_bind (M := fun _ _ => True)
        · exact triple_true.consequence (fun _ _ => trivial) (fun _ _ h => h) fun _ _ h => h
        · exact fun _ => ih
    · exact fun _ => triple_raise (fun _ _ => trivial) fun _ _ => trivial

/-- The instance was asked for its address before, and this is it. -/
def AddressOf (port : ℕ) (id host : String) (log : List Event) : Prop :=
  ∃ address others, (⟨.visibleAddresses id, .ok (address :: others)⟩ : Event) ∈ log ∧
    host = address ++ ":" ++ toString port

/-- The demand of a replica-set shrink: the address of the member was given to a removal that
a primary carried out. -/
def RemovedFirst (port : ℕ) : Event → List Event → Prop :=
  BeforeRemoval fun e log => ∀ id, e.1 = .detach id ∨ e.1 = .delete id → StepDownsReported log →
    ∃ guest hosts, RemovedBy guest hosts log ∧ ∃ host ∈ hosts, AddressOf port id host log

/-- Every instance of a list has its address among the hosts. -/
def Addressed (port : ℕ) (instances : List Instance) (hosts : List String) (log : List Event) :
    Prop :=
  ∀ i ∈ instances, ∃ host ∈ hosts, AddressOf port i.id host log

theorem Addressed.append {port : ℕ} {instances : List Instance} {hosts : List String}
    {log : List Event} (h : Addressed port instances hosts log) (e : Event) :
    Addressed port instances hosts (log ++ [e]) := by
  intro i hi
  obtain ⟨host, hhost, address, others, hmem, heq⟩ := h i hi
  exact ⟨host, hhost, address, others, List.mem_append_left _ hmem, heq⟩

/-- The addresses of the removed members, one for each. -/
theorem triple_addresses (conf : MongoConf) (removal : List Instance) :
    Triple world (fun _ => True) (fun _ => True)
      (collect (fun i => memberAddress conf i.id) removal)
      (fun hosts s => Addressed conf.mongodbPort removal hosts s.log) fun _ _ => True := by
  refine (triple_collect (J := fun d hosts s => Addressed conf.mongodbPort d hosts s.log)
    (fun _ _ _ _ => trivial) fun pre i post hosts _ => ?_).consequence (fun _ _ i hi => by cases hi)
    (fun _ _ h => h) fun _ _ h => h
  · unfold memberAddress
    apply triple_bind (M := fun (addresses : List String) s =>
      Addressed conf.mongodbPort pre hosts s.log ∧
        (⟨.visibleAddresses i.id, .ok addresses⟩ : Event) ∈ s.log)
    · apply triple_ask (fun _ _ => trivial) ?_ fun _ _ _ _ => ⟨trivial, trivial⟩
      intro s addresses db hs _
      exact ⟨⟨hs.append _, List.mem_append_right _ (List.mem_singleton_self _)⟩, trivial⟩
    · intro addresses
      cases addresses with
      | nil => exact triple_raise (fun _ _ => trivial) fun _ _ => trivial
      | cons address others =>
        apply triple_ret (fun _ _ => trivial)
        rintro s ⟨hpre, hmem⟩ j hj
        rcases List.mem_append.1 hj with hj | hj
        · obtain ⟨host, hhost, haddress⟩ := hpre j hj
          exact ⟨host, List.mem_append_left _ hhost, haddress⟩
        · rw [List.mem_singleton.1 hj]
          exact ⟨_, List.mem_append_right _ (List.mem_singleton_self _), address, others, hmem, rfl⟩

/-- What holds once the members are removed from the set. -/
structure Given (port : ℕ) (removal : List Instance) (hosts : List String) (log : List Event) :
    Prop where
  guarded : Guarded (RemovedFirst port) log
  addressed : Addressed port removal hosts log
  removed : Removed hosts log

/-- Taking away one of the removed members meets the demand. -/
theorem Given.removal {port : ℕ} {removal : List Instance} {hosts : List String}
    {log : List Event} (h : Given port removal hosts log) {i : Instance} (hi : i ∈ removal)
    {e : Event} (he : e.1 = .detach i.id ∨ e.1 = .delete i.id) : Given port removal hosts (log ++ [e]) := by
  refine ⟨guarded_append.2 ⟨h.guarded, ?_⟩, h.addressed.append e, h.removed.append e⟩
  intro _ id hid hreported
  have hsame : id = i.id := by
    rcases he with he | he <;> rcases hid with hid | hid <;> rw [he] at hid <;> cases hid <;> rfl
  obtain ⟨guest, hguest⟩ := h.removed hreported
  obtain ⟨host, hhost, haddress⟩ := h.addressed i hi
  rw [hsame]
  exact ⟨guest, hosts, hguest, host, hhost, haddress⟩

/-- The members that the set has given up may be taken away in any order. -/
theorem triple_given {port : ℕ} {removal : List Instance} {hosts : List String} {p : Action Unit}
    (h : Respects world (fun s => Given port removal hosts s.log)
      (fun c => ∃ i ∈ removal, c = .detach i.id ∨ c = .delete i.id) p) :
    Triple world (fun s => Guarded (RemovedFirst port) s.log)
      (fun s => Given port removal hosts s.log) p (fun _ s => Guarded (RemovedFirst port) s.log)
      fun _ s => Guarded (RemovedFirst port) s.log := by
  have hkeeps := h.triple fun s c r s' hs ⟨i, hi, hc⟩ hw => by
    rw [world_log hw]
    exact hs.removal hi hc
  exact (hkeeps.weaken fun _ h => h.guarded).consequence (fun _ h => h) (fun _ _ h => h.guarded)
    fun _ _ h => h.guarded

/-- Calls that do not write keep all that the removals need. -/
theorem world_reads_given {port : ℕ} {hosts : List String} {removal : List Instance} {s s' : Run}
    {c : Call} {r : Except Error c.Answer}
    (hs : Guarded (RemovedFirst port) s.log ∧ Addressed port removal hosts s.log)
    (hc : c.writes = false) (hw : world s c r s') :
    Guarded (RemovedFirst port) s'.log ∧ Addressed port removal hosts s'.log := by
  rw [world_log hw]
  exact ⟨guarded_of_not_removes hs.1 (Call.not_removes_of_not_writes hc), hs.2.append _⟩

section Shrink

variable {port : ℕ} (fuel : ℕ) (self : MongoDbCluster) (removalIds requested : List String)
  (instances : List Instance)

theorem triple_removedFirst {α : Type} {p : Action α}
    (h : Respects world (fun s => Guarded (RemovedFirst port) s.log) (fun c => c.writes = false) p) :
    Triple world (fun s => Guarded (RemovedFirst port) s.log)
      (fun s => Guarded (RemovedFirst port) s.log) p (fun _ s => Guarded (RemovedFirst port) s.log)
      fun _ s => Guarded (RemovedFirst port) s.log :=
  triple_guarded (h.mono fun _ => Call.not_removes_of_not_writes)

theorem triple_addressed {α : Type} {p : Action α} {removal : List Instance} {hosts : List String}
    (h : Respects world (fun s => Guarded (RemovedFirst port) s.log ∧
      Addressed port removal hosts s.log) (fun c => c.writes = false) p) :
    Triple world (fun s => Guarded (RemovedFirst port) s.log)
      (fun s => Guarded (RemovedFirst port) s.log ∧ Addressed port removal hosts s.log) p
      (fun _ s => Guarded (RemovedFirst port) s.log ∧ Addressed port removal hosts s.log)
      fun _ s => Guarded (RemovedFirst port) s.log :=
  ((h.triple fun _ _ _ _ => world_reads_given).weaken fun _ h => h.1).consequence
    (fun _ h => h) (fun _ _ h => h) fun _ _ h => h.1

/-- Loading, asking the set and taking away, in this order. -/
theorem triple_removal_guarded (conf : MongoConf) :
    Triple world (fun s => Guarded (RemovedFirst conf.mongodbPort) s.log)
      (fun s => Guarded (RemovedFirst conf.mongodbPort) s.log) (do
        let remaining ← collect loadInstance (instances.filter fun i => i.id ∉ requested)
        let removal ← collect loadInstance (instances.filter fun i => i.id ∈ requested)
        let addresses ← collect (fun i => memberAddress conf i.id) removal
        let now : ℤ ← ask .clock
        removeMembers addresses (remaining ++ removal) (now + conf.addMembersTimeout) fuel
        forEach removal fun i => ask (.detach i.id)
        forEach removal fun i => ask (.delete i.id))
      (fun _ s => Guarded (RemovedFirst conf.mongodbPort) s.log)
      fun _ s => Guarded (RemovedFirst conf.mongodbPort) s.log := by
  have hload : ∀ l, Respects world (fun s => Guarded (RemovedFirst conf.mongodbPort) s.log)
      (fun c => c.writes = false) (collect loadInstance l) := fun l =>
    respects_collect fun i _ => respects_ask rfl
  apply triple_bind (triple_removedFirst (hload _))
  intro remaining
  apply triple_bind (triple_removedFirst (hload _))
  intro removal
  apply triple_bind (M := fun hosts s => Guarded (RemovedFirst conf.mongodbPort) s.log ∧
    Addressed conf.mongodbPort removal hosts s.log)
  · have hguarded : Triple world (fun s => Guarded (RemovedFirst conf.mongodbPort) s.log)
        (fun s => Guarded (RemovedFirst conf.mongodbPort) s.log)
        (collect (fun i => memberAddress conf i.id) removal)
        (fun _ s => Guarded (RemovedFirst conf.mongodbPort) s.log)
        fun _ s => Guarded (RemovedFirst conf.mongodbPort) s.log :=
      triple_removedFirst (respects_collect fun i _ => (respects_memberAddress conf i.id).mono
        fun _ => Call.not_writes_of_inquires)
    exact ((hguarded.and (triple_addresses conf removal)).weaken fun _ h => h.1).consequence
      (fun _ h => ⟨h, trivial⟩) (fun _ _ h => h) fun _ _ h => h.1
  · intro hosts
    apply triple_bind (triple_addressed (respects_ask rfl))
    intro (now : ℤ)
    apply triple_bind (M := fun _ s => Given conf.mongodbPort removal hosts s.log)
    · have hkeeps : Triple world (fun s => Guarded (RemovedFirst conf.mongodbPort) s.log)
          (fun s => Guarded (RemovedFirst conf.mongodbPort) s.log ∧
            Addressed conf.mongodbPort removal hosts s.log)
          (removeMembers hosts (remaining ++ removal) (now + conf.addMembersTimeout) fuel)
          (fun _ s => Guarded (RemovedFirst conf.mongodbPort) s.log ∧
            Addressed conf.mongodbPort removal hosts s.log)
          fun _ s => Guarded (RemovedFirst conf.mongodbPort) s.log :=
        triple_addressed ((respects_removeMembers _ _ _ _).mono fun _ => Call.not_writes_of_inquires)
      exact ((hkeeps.and (triple_removeMembers hosts (remaining ++ removal) _ fuel)).weaken
        fun _ h => h.1).consequence (fun _ h => ⟨h, trivial⟩) (fun _ _ h => ⟨h.1.1, h.1.2, h.2⟩)
        fun _ _ h => h.1
    · intro _
      apply triple_given
      apply respects_bind (respects_forEach fun i hi => respects_ask ⟨i, hi, .inl rfl⟩)
      exact fun _ => respects_forEach fun i hi => respects_ask ⟨i, hi, .inr rfl⟩

/-- A replica-set shrink takes a member away only after the set has given it up. -/
theorem triple_shrinkReplicaSet_guarded :
    Triple world (fun s => Guarded (RemovedFirst self.conf.mongodbPort) s.log)
      (fun s => Guarded (RemovedFirst self.conf.mongodbPort) s.log)
      (shrinkReplicaSet fuel self removalIds)
      (fun _ s => Guarded (RemovedFirst self.conf.mongodbPort) s.log)
      fun _ s => Guarded (RemovedFirst self.conf.mongodbPort) s.log := by
  unfold shrinkReplicaSet
  apply triple_bind (triple_removedFirst (respects_rejectIf _ _))
  intro _
  apply triple_bind (triple_removedFirst (respects_ask rfl))
  intro instances
  apply triple_bind (triple_removedFirst (respects_ofExcept _))
  intro requested
  have hwrite : ∀ status, Triple world (fun s => Guarded (RemovedFirst self.conf.mongodbPort) s.log)
      (fun s => Guarded (RemovedFirst self.conf.mongodbPort) s.log) (ask (.updateDb self.id status))
      (fun _ s => Guarded (RemovedFirst self.conf.mongodbPort) s.log)
      fun _ s => Guarded (RemovedFirst self.conf.mongodbPort) s.log := fun status =>
    triple_guarded (respects_ask rfl)
  apply triple_bind (hwrite _)
  intro _
  exact triple_ensure (M := fun _ s => Guarded (RemovedFirst self.conf.mongodbPort) s.log)
    (triple_removal_guarded fuel requested instances self.conf) (fun _ => hwrite _) fun _ => hwrite _

end Shrink

/-- In every run of a replica-set shrink, if the step-downs before a removal were reported, a
primary that stays has run the removal of that member; and a guest's result is right exactly
if its own step-down was reported. -/
theorem removed_before_deletion (db : Database) :
    (∀ (fuel : ℕ) (self : MongoDbCluster) (removalIds : List String) (o : Outcome Error Unit)
      (s : Run), isSharded (db.live self.id) = false →
      Exec world (shrink fuel self removalIds) ⟨db, []⟩ o s →
      ∀ pre e post id, s.log = pre ++ e :: post → e.1 = .detach id ∨ e.1 = .delete id →
        StepDownsReported pre → ∃ guest hosts, RemovedBy guest hosts pre ∧
          ∃ host ∈ hosts, AddressOf self.conf.mongodbPort id host pre) ∧
    ∀ (guest : String) (members : List String) (v : Value) (s : Run),
      Exec world (removeReplicaMembers guest members) ⟨db, []⟩ (.value v) s →
      (Truthful guest members v s.log ↔ StepDownsReported s.log) := by
  constructor
  · intro fuel self removalIds o s hset h pre e post id hlog he hreported
    have hshrink : Triple world (fun s => Guarded (RemovedFirst self.conf.mongodbPort) s.log)
        (fun s => s.db = db ∧ Guarded (RemovedFirst self.conf.mongodbPort) s.log)
        (shrink fuel self removalIds)
        (fun _ s => Guarded (RemovedFirst self.conf.mongodbPort) s.log)
        fun _ s => Guarded (RemovedFirst self.conf.mongodbPort) s.log := by
      unfold shrink
      apply triple_bind (M := fun (rows : List Instance) s => rows = db.live self.id ∧
        Guarded (RemovedFirst self.conf.mongodbPort) s.log)
      · apply triple_ask (fun _ h => h.2)
        · rintro s rows db' ⟨rfl, hs⟩ ⟨rfl, -⟩
          exact ⟨⟨rfl, guarded_of_not_removes hs rfl⟩, guarded_of_not_removes hs rfl⟩
        · rintro s x ⟨-, hs⟩ -
          exact ⟨guarded_of_not_removes hs rfl, guarded_of_not_removes hs rfl⟩
      · intro rows
        apply triple_intro
        rintro s₀ ⟨rfl, hs₀⟩
        rw [if_neg (by rw [hset]; decide)]
        exact (triple_shrinkReplicaSet_guarded fuel self removalIds).consequence
          (fun _ he => he ▸ hs₀) (fun _ _ h => h) fun _ _ h => h
    have hremoves : e.1.removes = true := by rcases he with he | he <;> rw [he] <;> rfl
    exact hshrink.always _ ⟨rfl, guarded_nil⟩ o s h pre e post hlog hremoves id he hreported
  · intro guest members v s h
    obtain ⟨hello, output, htruthy, rfl, hlog⟩ :=
      (triple_removeReplicaMembers guest members []).value ⟨db, []⟩ rfl v s h
    rw [hlog, List.nil_append]
    exact truthful_iff guest members hello output htruthy

section Example

/-- A replica set of three members. -/
def threeMembers : Database where
  clusters := [⟨"c1", "db", none, .none⟩]
  instances := ["i1", "i2", "i3"].map fun id =>
    ⟨id, some "c1", "small", some 10, replicaSetConfig "c1", false⟩

/-- The first member is the primary, and its step-down prints something that is no JSON. -/
def quietStepDown : Surroundings where
  mongosh := fun _ _ script => match script with
    | .hello => .json (.record [("primary", .str "i1:27017")])
    | _ => .text "DeprecationWarning"

private def isStepDown (e : Event) : Bool := match e.1 with
  | .mongosh _ _ .stepDown => true
  | _ => false

private def isRemove (e : Event) : Bool := match e.1 with
  | .mongosh _ _ (.remove _) => true
  | _ => false

/-- The primary steps down, and its guest says that the members are removed. -/
private def firstRemoved : Outcome Error Unit × Run :=
  quietStepDown.run (shrink 1 idleCluster ["i1"]) threeMembers

private def secondRemoved : Outcome Error Unit × Run :=
  quietStepDown.run (shrink 1 idleCluster ["i2"]) threeMembers

private theorem secondRemoved_reported : StepDownsReported (secondRemoved.2.log.take 13) := by
  intro guest host output hmem
  have hnone : (secondRemoved.2.log.take 13).any isStepDown = false := rfl
  exact absurd rfl (List.any_eq_false.1 hnone _ hmem)

theorem secondRemoved_before_deletion :
    (∃ guest hosts, RemovedBy guest hosts (secondRemoved.2.log.take 13) ∧
      ∃ host ∈ hosts, AddressOf 27017 "i2" host (secondRemoved.2.log.take 13)) ∧
    (Truthful "i1" ["i2:27017"]
        (removalResult ["i2:27017"] (.text "DeprecationWarning"))
        (quietStepDown.run (removeReplicaMembers "i1" ["i2:27017"]) threeMembers).2.log ↔
      StepDownsReported
        (quietStepDown.run (removeReplicaMembers "i1" ["i2:27017"]) threeMembers).2.log) :=
  ⟨(removed_before_deletion threeMembers).1 1 idleCluster ["i2"] secondRemoved.1 secondRemoved.2 rfl
      (quietStepDown.exec (shrink 1 idleCluster ["i2"]) threeMembers) (secondRemoved.2.log.take 13)
      ⟨.detach "i2", .ok ()⟩ (secondRemoved.2.log.drop 14) "i2" rfl (.inl rfl)
      secondRemoved_reported,
    (removed_before_deletion threeMembers).2 "i1" ["i2:27017"] _ _
      (quietStepDown.exec (removeReplicaMembers "i1" ["i2:27017"]) threeMembers)⟩

/-- The first member is detached although no script has removed it. -/
theorem firstRemoved_undeleted :
    ¬∀ (db : Database) (fuel : ℕ) (self : MongoDbCluster) (removalIds : List String)
      (o : Outcome Error Unit) (s : Run), isSharded (db.live self.id) = false →
      Exec world (shrink fuel self removalIds) ⟨db, []⟩ o s →
      ∀ pre e post id, s.log = pre ++ e :: post → e.1 = .detach id ∨ e.1 = .delete id →
        ∃ guest hosts, RemovedBy guest hosts pre ∧
          ∃ host ∈ hosts, AddressOf self.conf.mongodbPort id host pre := by
  intro h
  obtain ⟨guest, hosts, ⟨hello, output, -, hscript, -⟩, -⟩ :=
    h threeMembers 1 idleCluster ["i1"] firstRemoved.1 firstRemoved.2 rfl
      (quietStepDown.exec (shrink 1 idleCluster ["i1"]) threeMembers) (firstRemoved.2.log.take 13)
      ⟨.detach "i1", .ok ()⟩ (firstRemoved.2.log.drop 14) "i1" rfl (.inl rfl)
  have hnone : (firstRemoved.2.log.take 13).any isRemove = false := rfl
  exact absurd rfl (List.any_eq_false.1 hnone _ hscript)

end Example

end Yggdrasil.Mongo
