import Yggdrasil.Inventory.Pending

/-! Which nested types a strict run leaves out. The loop of the builtin provider stops at a
pass without progress and keeps silent about the types that are still pending, so exactly the
types that no chain of parents leads to are left out. The legacy provider raises for them. -/

namespace Yggdrasil.Inventory

open Combination Effect Effect.Program Python

/-! ### The loop over the pending types -/

section Loop

variable {cloud : Cloud} {p : BuiltinProvider} {strict : Bool} {projectId : String}
  {I : Collected → List Spec → List Event → Prop} {c : Collected} {Run : Prop}
  {Err : Exc → List Event → Prop}

/-- What holds within a pass: the visited types that were not ready are still pending, all of
them if there was no progress. -/
structure InPass (I : Collected → List Spec → List Event → Prop) (c : Collected)
    (pending visited : List Spec) (s : Pass) (t : List Event) : Prop where
  inv : ∃ rest, pending = visited ++ rest ∧ I s.collected (s.remaining ++ rest) t
  fewer : s.progressed = true → s.remaining.length < visited.length
  same : s.progressed = false → s.collected = c ∧ s.remaining = visited ∧
    ∀ spec ∈ visited, ready c.objects spec = false

variable (hstep : ∀ c pre spec post, ready c.objects spec = true →
  Triple Run (I c (pre ++ spec :: post)) (collectSpec cloud p strict projectId c spec)
    (fun c' t => I c' (pre ++ post) t) Err)

include hstep

theorem triple_nestedStep_inPass {pending visited post : List Spec} {spec : Spec} (s : Pass)
    (he : pending = visited ++ spec :: post) :
    Triple Run (InPass I c pending visited s) (nestedStep cloud p strict projectId s spec)
      (InPass I c pending (visited ++ [spec])) Err := by
  apply triple_intro
  rintro t ⟨⟨rest, hrest, hI⟩, hfewer, hsame⟩
  rw [List.append_cancel_left (hrest.symm.trans he)] at hI
  have hle : s.remaining.length ≤ visited.length := by
    cases hp : s.progressed with
    | true => exact (hfewer hp).le
    | false => rw [(hsame hp).2.1]
  have hpending : pending = (visited ++ [spec]) ++ post := by
    rw [he, List.append_assoc, List.singleton_append]
  unfold nestedStep
  apply triple_ite
  · intro hready
    apply triple_bind ((hstep _ _ _ _ hready).consequence (fun u hu => hu ▸ hI) (fun _ _ => id)
      fun _ _ => id)
    intro c'
    apply triple_pure
    intro u hc'
    refine ⟨⟨post, hpending, hc'⟩, fun _ => ?_, fun h => by simp at h⟩
    simp only [List.length_append, List.length_singleton]
    omega
  · intro hready
    apply triple_pure
    rintro u rfl
    refine ⟨⟨post, hpending, ?_⟩, fun hp => ?_, fun hp => ?_⟩
    · simpa using hI
    · have := hfewer hp
      simpa using this
    · obtain ⟨hc, hvisited, hnone⟩ := hsame hp
      refine ⟨hc, congrArg (· ++ [spec]) hvisited, fun spec' hm => ?_⟩
      rcases List.mem_append.1 hm with hm | hm
      · exact hnone spec' hm
      · rw [List.mem_singleton.1 hm, ← hc]
        simpa using hready

theorem triple_pass {pending : List Spec} :
    Triple Run (I c pending) (pending.foldlM (nestedStep cloud p strict projectId) ⟨c, [], false⟩)
      (InPass I c pending pending) Err := by
  apply Triple.consequence (triple_foldlM_done (I := InPass I c pending)
    (fun pre spec post s he => triple_nestedStep_inPass hstep s he) ⟨c, [], false⟩)
    (fun t h => ?_) (fun _ _ => id) fun _ _ => id
  exact ⟨⟨pending, rfl, h⟩, fun hp => by simp at hp, fun _ => ⟨rfl, rfl, by simp⟩⟩

/-- The loop ends with the types that are not ready still pending. -/
theorem triple_nestedLoop_pending (fuel : ℕ) (pending : List Spec) (hfuel : pending.length ≤ fuel) :
    Triple Run (I c pending) (nestedLoop cloud p strict projectId fuel c pending)
      (fun c' t => ∃ left, I c' left t ∧ ∀ spec ∈ left, ready c'.objects spec = false) Err := by
  induction fuel generalizing c pending with
  | zero =>
    apply triple_pure
    intro t h
    rw [List.length_eq_zero_iff.1 (by omega : pending.length = 0)] at h
    exact ⟨[], h, fun _ hm => by simp at hm⟩
  | succ fuel ih =>
    rw [nestedLoop]
    apply triple_ite
    · intro hnil
      apply triple_pure
      intro t h
      rw [hnil] at h
      exact ⟨[], h, fun _ hm => by simp at hm⟩
    · intro _
      apply triple_bind (triple_pass hstep)
      intro s
      apply triple_intro
      rintro t ⟨⟨rest, hrest, hI⟩, hfewer, hsame⟩
      have hnil : rest = [] := by simpa using hrest.symm
      rw [hnil, List.append_nil] at hI
      apply triple_ite
      · intro hp
        have := hfewer hp
        exact (ih s.remaining (by omega)).consequence (fun u hu => hu ▸ hI) (fun _ _ => id)
          fun _ _ => id
      · intro hp
        obtain ⟨hc, hremaining, hnone⟩ := hsame (by simpa using hp)
        apply triple_pure
        rintro u rfl
        refine ⟨s.remaining, hI, ?_⟩
        rw [hc, hremaining]
        exact hnone

end Loop

/-! ### The builtin provider -/

section Builtin

variable {cloud : Cloud} {p : BuiltinProvider} {project : Project} {spec : Spec} {c : Collected}
  {t : List Event}

/-- A request for a type that can be listed, or for the objects of a container. -/
def BuiltinProvider.Asks (p : BuiltinProvider) : Event → Prop
  | .listing r _ => p.Grounded r.resource ∨ p.service = "object-store" ∧ r.resource = "object"
  | _ => True

theorem emits_tolerate {P : Event → Prop} {strict : Bool} {resource : String}
    {listing : Prog (List Value)} (h : Emits P listing) (hI : ∀ i, P (.issue i)) :
    Emits P (tolerate strict resource listing) := by
  apply emits_handle h
  intro x
  cases x with
  | other message => exact emits_throw _
  | inventory kind message =>
    apply emits_ite
    · exact fun _ => emits_pure _
    · intro _
      apply emits_bind (emits_emit (hI _))
      exact fun _ => emits_ite (fun _ => emits_throw _) fun _ => emits_pure _

theorem emits_collectSpec {P : Event → Prop} {strict : Bool} {projectId : String}
    (hL : ∀ r answer, r.resource = spec.name → P (.listing r answer)) (hI : ∀ i, P (.issue i)) :
    Emits P (collectSpec cloud p strict projectId c spec) := by
  apply emits_bind (emits_tolerate (emits_listSpec p hL projectId c.objects) hI)
  exact fun objects => emits_bind (emits_serialize _) fun _ => emits_pure _

theorem asks_of_grounded {name : String} (hg : p.Grounded name) (r : Request) (answer : Answer)
    (hr : r.resource = name) : p.Asks (.listing r answer) := .inl (hr ▸ hg)

theorem emits_collectDirect_asks {strict : Bool} :
    Emits p.Asks (collectDirect cloud p strict project) := by
  apply emits_bind (P := p.Asks) (emits_projectRecord p project)
  intro c
  apply emits_bind
  · apply emits_foldlM_of_mem
    intro c spec hspec
    have hg : p.Grounded spec.name := by
      apply BuiltinProvider.Grounded.base
      unfold BuiltinProvider.baseNames
      rw [List.mem_append, List.mem_append]
      exact .inl (.inr (List.mem_map_of_mem hspec))
    exact emits_collectSpec (asks_of_grounded hg) fun _ => trivial
  · intro c
    apply emits_bind (P := p.Asks) (emits_excludeDefaultSecurityGroup p c)
    exact fun c => emits_filterRelated p.service c

theorem emits_collectObjectStore_asks {strict : Bool} :
    Emits p.Asks (collectObjectStore cloud p strict c) := by
  apply emits_ite
  · exact fun _ => emits_pure _
  · intro hs
    have hs := not_not.1 hs
    have hcontainer : p.Grounded "container" := by
      apply BuiltinProvider.Grounded.base
      unfold BuiltinProvider.baseNames BuiltinProvider.containerNames
      rw [if_pos hs, List.mem_append]
      exact .inr (List.mem_singleton_self _)
    split
    · apply emits_bind
      · apply emits_ite
        · exact fun _ => emits_pure _
        · intro _
          apply emits_bind (emits_tolerate
            (emits_listAll p (asks_of_grounded hcontainer) _ _ _) fun _ => trivial)
          exact fun _ => emits_bind (emits_serialize _) fun _ => emits_pure _
      · intro c
        apply emits_bind
        · apply emits_foldlM
          intro entries container
          apply emits_ite
          · exact fun _ => emits_pure _
          · intro _
            apply emits_bind (P := p.Asks) (emits_tolerate
              (emits_listAll p (fun _ _ hr => .inr ⟨hs, hr⟩) _ _ _) fun _ => trivial)
            exact fun _ => emits_bind (emits_ofOption _) fun _ => emits_pure _
        · exact fun _ => emits_pure _
    · apply emits_bind
      · exact emits_emit (P := p.Asks) (e := .issue _) trivial
      · exact fun _ => emits_ite (fun _ => emits_throw _) fun _ => emits_pure _

theorem evidence_answers : Evidence p.Makes (p.Answers project) p.service project where
  mono t s name o := by
    rintro (h | ⟨r, answer, hm, h⟩)
    · exact .inl h
    · exact .inr ⟨r, answer, List.mem_append_left s hm, h⟩
  record t hs := .inl ⟨hs, rfl, rfl⟩
  checked t r items o hm _ _ ho hb := .inr ⟨r, .objects items, hm, rfl, ho, .inl hb⟩
  child t r answer o hm hr hclass _ _ ho := by
    obtain ⟨-, resourceClass, hsome, -⟩ := hr
    rcases hclass with hnone | ⟨-, hobject, -⟩
    · rw [hsome] at hnone
      cases hnone
    · exact .inr ⟨r, answer, hm, rfl, ho, .inr (.inr hobject)⟩
  container t r items o hm _ hr ho := .inr ⟨r, .objects items, hm, rfl, ho, .inr (.inl hr)⟩
  contained t r o container entry hr hclass := by
    obtain ⟨-, resourceClass, hsome, -⟩ := hr
    rw [hsome] at hclass
    cases hclass

theorem identifies_of_append {s : List Event} (h : p.Identifies project (t ++ s)) :
    p.Identifies project t :=
  fun name o ho => h name o (evidence_answers.mono t s name o ho)

theorem identified_of_sound (h : Sound (p.Answers project) [] t c) (hi : p.Identifies project t) :
    p.Identified c :=
  fun name objects hm o ho => hi name o (h.objects name objects hm o ho)

theorem mem_typeNames_of_grounded {name : String} (h : p.Grounded name) : name ∈ p.typeNames := by
  unfold BuiltinProvider.typeNames
  rw [List.mem_append]
  cases h with
  | base hn => exact .inl hn
  | nested _ hspec => exact .inr (List.mem_map_of_mem hspec)

/-- A type with a listed parent for every placeholder can be listed. -/
theorem grounded_of_parents (hspec : spec ∈ p.nestedSpecs)
    (h : ∀ q ∈ spec.placeholders, ∃ name, normalizedName name = parentName q ∧ p.Grounded name) :
    p.Grounded spec.name := by
  have hchoice : ∀ q, ∃ name, q ∈ spec.placeholders →
      normalizedName name = parentName q ∧ p.Grounded name := by
    intro q
    by_cases hq : q ∈ spec.placeholders
    · obtain ⟨name, hname⟩ := h q hq
      exact ⟨name, fun _ => hname⟩
    · exact ⟨"", fun hq' => absurd hq' hq⟩
  choose parent hparent using hchoice
  exact .nested parent hspec (fun q hq => (hparent q hq).1) fun q hq => (hparent q hq).2

/-- What holds between the passes of any strict run: only types that can be listed are. -/
structure Reached (p : BuiltinProvider) (c : Collected) (pending : List Spec) (t : List Event) :
    Prop where
  nodup : (c.objects.map Prod.fst).Nodup
  grounded : ∀ name ∈ c.objects.map Prod.fst, p.Grounded name
  base : ∀ name ∈ p.baseNames, name ∈ c.objects.map Prod.fst
  nested : ∀ spec ∈ pending, spec ∈ p.nestedSpecs
  asks : ∀ e ∈ t, p.Asks e

/-- And where the matching of parents is exact, the types that are not pending are accounted
for. -/
structure Progress (p : BuiltinProvider) (project : Project) (c : Collected) (pending : List Spec)
    (t : List Event) : Prop extends Reached p c pending t where
  free : ∀ spec ∈ pending, spec.name ∉ c.objects.map Prod.fst
  distinct : (pending.map Spec.name).Nodup
  sound : Sound (p.Answers project) [] t c
  listed : ∀ spec ∈ p.nestedSpecs, spec ∈ pending ∨ spec.name ∈ c.objects.map Prod.fst ∧
    (p.Identifies project t → p.hierarchy.Accounted t c.objects spec.nestedType)

section Step

variable {pre post : List Spec} {s : List Event} {c' : Collected}

theorem Reached.grounded_of_ready (h : Reached p c (pre ++ spec :: post) t)
    (hready : ready c.objects spec = true) : p.Grounded spec.name := by
  apply grounded_of_parents (h.nested spec (List.mem_append_right pre List.mem_cons_self))
  intro q hq
  obtain ⟨name, parents, hm, hn, -⟩ := exists_of_ready hready hq
  exact ⟨name, hn, h.grounded name (List.mem_map_of_mem hm)⟩

theorem Reached.typeNames {pending : List Spec} (h : Reached p c pending t) :
    ∀ name ∈ c.objects.map Prod.fst, name ∈ p.typeNames :=
  fun name hn => mem_typeNames_of_grounded (h.grounded name hn)

/-- Listing a type whose parents have objects. -/
theorem Reached.lists (h : Reached p c (pre ++ spec :: post) t)
    (hready : ready c.objects spec = true)
    (hlists : Lists (c.objects.map Prod.fst ++ [spec.name]) c') (hasks : ∀ e ∈ s, p.Asks e) :
    Reached p c' (pre ++ post) s where
  nodup := hlists.nodup
  grounded name hn := by
    rcases List.mem_append.1 ((hlists.mem name).1 hn) with hn | hn
    · exact h.grounded name hn
    · rw [List.mem_singleton.1 hn]
      exact h.grounded_of_ready hready
  base name hn := (hlists.mem name).2 (List.mem_append_left _ (h.base name hn))
  nested spec' hm := by
    apply h.nested spec'
    rcases List.mem_append.1 hm with hm | hm
    · exact List.mem_append_left _ hm
    · exact List.mem_append_right _ (List.mem_cons_of_mem _ hm)
  asks := hasks

/-- It accounts for the type, and for all the others still. -/
theorem Progress.stores (h : Progress p project c (pre ++ spec :: post) t)
    (hu : p.hierarchy.Unambiguous p.typeNames) (hready : ready c.objects spec = true)
    (hsound : Sound (p.Answers project) [] (t ++ s) c)
    (hstores : Stores (p.Answers project) (t ++ s) spec.name c c')
    (hcovered : p.Identified c → p.hierarchy.Covered (t ++ s) c.objects spec.nestedType ∨
      p.hierarchy.AnsweredMissing (t ++ s) spec.name)
    (hasks : ∀ e ∈ t ++ s, p.Asks e) : Progress p project c' (pre ++ post) (t ++ s) := by
  have hspec := h.nested spec (List.mem_append_right pre List.mem_cons_self)
  have hfree := h.free spec (List.mem_append_right pre List.mem_cons_self)
  have hsound' := hsound.stores hstores
  obtain ⟨objects, -, -, -, hobjects, -⟩ := hstores
  have hlists : Lists (c.objects.map Prod.fst) c := ⟨h.nodup, fun _ => Iff.rfl⟩
  have hreached := h.toReached.lists hready (hlists.of_set hobjects) hasks
  have hkeys : ∀ name, name ∈ c'.objects.map Prod.fst ↔
      name = spec.name ∨ name ∈ c.objects.map Prod.fst := by
    intro name
    rw [hobjects]
    exact Dict.mem_keys_set
  have hx : Extends c.objects c'.objects := by
    rw [hobjects]
    exact extends_set (Dict.get?_eq_none hfree)
  have hothers : ∀ spec' ∈ pre ++ post, spec' ∈ pre ++ spec :: post ∧ spec'.name ≠ spec.name := by
    have hd := h.distinct
    rw [List.map_append, List.map_cons, List.nodup_middle, List.nodup_cons, ← List.map_append] at hd
    intro spec' hm
    refine ⟨?_, fun he => hd.1 (he ▸ List.mem_map_of_mem hm)⟩
    rcases List.mem_append.1 hm with hm | hm
    · exact List.mem_append_left _ hm
    · exact List.mem_append_right _ (List.mem_cons_of_mem _ hm)
  refine ⟨hreached, ?free, ?distinct, ?sound, ?listed⟩
  case free =>
    intro spec' hm hn
    obtain ⟨hm, hne⟩ := hothers spec' hm
    rcases (hkeys _).1 hn with he | hn
    · exact hne he
    · exact h.free spec' hm hn
  case distinct =>
    have hsub : List.Sublist (pre ++ post) (pre ++ spec :: post) :=
      List.Sublist.append_left (List.sublist_cons_self spec post) pre
    exact h.distinct.sublist (hsub.map Spec.name)
  case sound => exact hsound'.fewer fun name hn => by simp at hn
  case listed =>
    intro spec' hspec'
    rcases h.listed spec' hspec' with hm | ⟨hn, haccounted⟩
    · rw [List.mem_append, List.mem_cons] at hm
      rcases hm with hm | rfl | hm
      · exact .inl (List.mem_append_left _ hm)
      · refine .inr ⟨(hkeys _).2 (.inl rfl), fun hi => ?_⟩
        have hnow : p.hierarchy.Accounted (t ++ s) c.objects spec'.nestedType :=
          (hcovered (identified_of_sound hsound hi)).imp_right .inl
        have hthen := hnow.extend hu (mem_hierarchy_types hspec) hreached.typeNames hx []
        rwa [List.append_nil] at hthen
      · exact .inl (List.mem_append_right _ hm)
    · refine .inr ⟨(hkeys _).2 (.inr hn), fun hi => ?_⟩
      exact (haccounted (identifies_of_append hi)).extend hu (mem_hierarchy_types hspec')
        hreached.typeNames hx s

theorem triple_collectSpec_reached {projectId : String} (hready : ready c.objects spec = true) :
    Triple True (Reached p c (pre ++ spec :: post)) (collectSpec cloud p true projectId c spec)
      (fun c' t => Reached p c' (pre ++ post) t) (fun _ _ => True) := by
  apply triple_intro
  intro t h
  have hasks : Emits p.Asks (collectSpec cloud p true projectId c spec) :=
    emits_collectSpec (asks_of_grounded (h.grounded_of_ready hready)) fun _ => trivial
  apply (triple_collectSpec_lists.and hasks.triple).consequence
  · rintro u rfl
    exact ⟨⟨h.nodup, fun _ => Iff.rfl⟩, h.asks⟩
  · exact fun c' u h' => h.lists hready h'.1 h'.2
  · exact fun _ _ _ => trivial

theorem triple_collectSpec_progress (hu : p.hierarchy.Unambiguous p.typeNames)
    (hl : p.hasList = true ∨ isMissingResourceError p.unlistable = false)
    (hfilter : ∀ spec ∈ p.nestedSpecs, ∀ kv ∈ projectKwargs spec.resourceClass project.projectId,
      kv.1 ∉ spec.placeholders) (hready : ready c.objects spec = true) :
    Triple True (Progress p project c (pre ++ spec :: post))
      (collectSpec cloud p true project.projectId c spec)
      (fun c' t => Progress p project c' (pre ++ post) t) (fun _ _ => True) := by
  apply triple_intro
  intro t h
  have hspec := h.nested spec (List.mem_append_right pre List.mem_cons_self)
  have hcovered : Triple True (fun _ => True) (collectSpec cloud p true project.projectId c spec)
      (fun _ t => p.Identified c → p.hierarchy.Covered t c.objects spec.nestedType ∨
        p.hierarchy.AnsweredMissing t spec.name) (fun _ _ => True) := by
    by_cases hid : p.Identified c
    · exact (triple_collectSpec_covered hu hspec h.typeNames h.nodup hready hl (hfilter spec hspec)
        hid).consequence (fun _ => id) (fun _ _ h _ => h) fun _ _ => id
    · exact triple_true.consequence (fun _ => id) (fun _ _ _ hid' => absurd hid' hid) fun _ _ => id
  have hasks : Emits p.Asks (collectSpec cloud p true project.projectId c spec) :=
    emits_collectSpec (asks_of_grounded (h.grounded_of_ready hready)) fun _ => trivial
  have hstores : Triple True (fun t => Sound (p.Answers project) [] t c)
      (collectSpec cloud p true project.projectId c spec)
      (fun c' t => Sound (p.Answers project) [] t c ∧ Stores (p.Answers project) t spec.name c c')
      (fun _ _ => True) := triple_collectSpec_nested evidence_answers hspec
  apply (((hstores.and hasks.triple).and hcovered).frame (I := fun u => ∃ s, u = t ++ s)
    fun u s ⟨s', hs'⟩ => ⟨s' ++ s, by rw [hs', List.append_assoc]⟩).consequence
  · rintro u rfl
    exact ⟨⟨⟨h.sound, h.asks⟩, trivial⟩, [], (List.append_nil u).symm⟩
  · rintro c' u ⟨⟨⟨⟨hsound, hstores⟩, hasks⟩, hcovered⟩, s, rfl⟩
    exact h.stores hu hready hsound hstores hcovered hasks
  · exact fun _ _ _ => trivial

end Step

/-- A type that can be listed is listed, unless it has a parent type without objects. -/
theorem Progress.childless_of_left {left : List Spec} (h : Progress p project c left t)
    (hleft : ∀ spec ∈ left, ready c.objects spec = false) {name : String} (hg : p.Grounded name) :
    name ∈ c.objects.map Prod.fst ∨ ∃ spec ∈ left, spec.name = name ∧
      ∃ q ∈ spec.placeholders, p.hierarchy.Childless c.objects q := by
  induction hg with
  | base hn => exact .inl (h.base _ hn)
  | @nested spec parent hspec hparent _ ih =>
    rcases h.listed spec hspec with hm | ⟨hn, -⟩
    · refine .inr ⟨spec, hm, rfl, ?_⟩
      obtain ⟨q, hq, hempty⟩ := not_ready (hleft spec hm)
      refine ⟨q, hq, ?_⟩
      rcases ih q hq with hkey | ⟨spec', hm', hname, q', hq', hchildless⟩
      · obtain ⟨⟨name, parents⟩, hmem, hname⟩ := List.mem_map.1 hkey
        have hname : name = parent q := hname
        rw [hname] at hmem
        rw [hempty _ _ hmem (hparent q hq)] at hmem
        exact .listed (enumerates_iff.2 ⟨_, hparent q hq, Dict.get?_of_mem h.nodup hmem⟩)
      · have hspec' := h.nested spec' hm'
        have hnames : normalizedName spec'.name = parentName q := by
          rw [hname]
          exact hparent q hq
        exact .nested (mem_hierarchy_types hspec') (beq_iff_eq.2 hnames) hq' hchildless
    · exact .inl hn

theorem nodup_nestedSpecs : (p.nestedSpecs.map Spec.name).Nodup := nodup_specs

/-- Before the nested types, the types without parents are listed. -/
theorem reached_direct (hlists : Lists p.baseNames c) (hasks : ∀ e ∈ t, p.Asks e) :
    Reached p c p.nestedSpecs t where
  nodup := hlists.nodup
  grounded name hn := .base ((hlists.mem name).1 hn)
  base name hn := (hlists.mem name).2 hn
  nested _ := id
  asks := hasks

theorem progress_direct (hfresh : ∀ spec ∈ p.nestedSpecs, spec.name ∉ p.baseNames)
    (hlists : Lists p.baseNames c) (hsound : Sound (p.Answers project) [] t c)
    (hasks : ∀ e ∈ t, p.Asks e) : Progress p project c p.nestedSpecs t where
  toReached := reached_direct hlists hasks
  free spec hspec hn := hfresh spec hspec ((hlists.mem _).1 hn)
  distinct := nodup_nestedSpecs
  sound := hsound
  listed _ hspec := .inl hspec

/-- What holds before the nested types and is kept by each of them holds when a strict run
returns; the types that are not ready are left out. -/
theorem triple_collectAll_pending {I : Collected → List Spec → List Event → Prop}
    (hstart : ∀ c t, Lists p.baseNames c → Sound (p.Answers project) [] t c →
      (∀ e ∈ t, p.Asks e) → I c p.nestedSpecs t)
    (hstep : ∀ c pre spec post, ready c.objects spec = true →
      Triple True (I c (pre ++ spec :: post)) (collectSpec cloud p true project.projectId c spec)
        (fun c' t => I c' (pre ++ post) t) (fun _ _ => True)) :
    Triple True (fun t => t = []) (p.collectAll cloud true project)
      (fun c t => ∃ left, I c left t ∧ ∀ spec ∈ left, ready c.objects spec = false)
      (fun _ _ => True) := by
  have hdirect : Triple True (fun t => t = []) (collectDirect cloud p true project)
      (fun c t => (Sound (p.Answers project) (p.directSpecs.map Spec.name) t c ∧
        Lists (p.recordNames ++ p.directSpecs.map Spec.name) c) ∧ ∀ e ∈ t, p.Asks e)
      (fun _ _ => True) := by
    apply (((triple_collectDirect evidence_answers fun _ hspec _ _ =>
      makes_request (mem_directSpecs.1 hspec).1).and triple_collectDirect_lists).and
        emits_collectDirect_asks.triple).consequence
    · rintro t rfl
      exact ⟨⟨trivial, trivial⟩, fun e he => by simp at he⟩
    · exact fun _ _ => id
    · exact fun _ _ _ => trivial
  apply triple_bind hdirect
  intro c
  have hcontainers : Triple True
      (fun t => (Sound (p.Answers project) (p.directSpecs.map Spec.name) t c ∧
        Lists (p.recordNames ++ p.directSpecs.map Spec.name) c) ∧ ∀ e ∈ t, p.Asks e)
      (collectObjectStore cloud p true c) (fun c t => I c p.nestedSpecs t)
      (fun _ _ => True) := by
    apply (((triple_collectObjectStore evidence_answers).and triple_collectObjectStore_lists).and
      emits_collectObjectStore_asks.triple).consequence (fun _ => id)
    · rintro c t ⟨⟨hsound, hlists⟩, hasks⟩
      exact hstart c t hlists hsound hasks
    · exact fun _ _ _ => trivial
  apply triple_bind hcontainers
  intro c
  exact triple_nestedLoop_pending hstep _ _ le_rfl

/-- A type that is covered or missing can be listed. -/
theorem Reached.grounded_of_covered {left : List Spec} (h : Reached p c left t)
    (hspec : spec ∈ p.nestedSpecs)
    (hcovered : p.hierarchy.Covered t c.objects spec.nestedType ∨
      p.hierarchy.AnsweredMissing t spec.name) : p.Grounded spec.name := by
  rcases hcovered with hcovered | ⟨r, answer, hm, hr, -⟩
  · apply grounded_of_parents hspec
    intro q hq
    obtain ⟨parents, he⟩ := hcovered.enumerated q hq
    obtain ⟨name, hn, hg⟩ := enumerates_iff.1 he
    exact ⟨name, hn, h.grounded name (List.mem_map_of_mem (Dict.mem_of_get? hg))⟩
  · rcases h.asks _ hm with hg | ⟨hs, hobject⟩
    · exact hr ▸ hg
    · have hname : spec.name = "object" := hr.symm.trans hobject
      have hn := (mem_nestedSpecs.1 hspec).2.2
      simp [BuiltinProvider.isNested, hs, hname] at hn

/-- Where no parent type is without objects, a type that can be listed is covered or missing. -/
theorem Progress.covered_of_grounded {left : List Spec} (h : Progress p project c left t)
    (hleft : ∀ spec ∈ left, ready c.objects spec = false) (hi : p.Identifies project t)
    (hspec : spec ∈ p.nestedSpecs)
    (hx : ¬∃ q ∈ spec.placeholders, p.hierarchy.Childless c.objects q)
    (hg : p.Grounded spec.name) :
    p.hierarchy.Covered t c.objects spec.nestedType ∨ p.hierarchy.AnsweredMissing t spec.name := by
  rcases h.listed spec hspec with hm | ⟨-, haccounted⟩
  · rcases h.childless_of_left hleft hg with hn | ⟨spec', hm', hname, hchildless⟩
    · exact absurd hn (h.free spec hm)
    · have hsame : spec' = spec :=
        List.inj_on_of_nodup_map nodup_nestedSpecs (h.nested spec' hm') hspec hname
      exact absurd (hsame ▸ hchildless) hx
  · rcases haccounted hi with hcovered | hmissing | hchildless
    · exact .inl hcovered
    · exact .inr hmissing
    · exact absurd hchildless hx

end Builtin

end Yggdrasil.Inventory
