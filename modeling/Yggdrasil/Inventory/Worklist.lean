import Yggdrasil.Inventory.Completeness

/-! The loop over the nested types of the builtin provider as a worklist, for answers that depend
on the request alone. It ends, it sends no request for a type twice, and it passes over exactly
the types that have a placeholder without objects. -/

namespace Yggdrasil.Inventory

open Combination Effect Effect.Program Python

/-- A service that answers a request with the same objects whenever it is sent. -/
def steady (respond : Request → List Value) : Cloud := fun _ r => .objects (respond r)

/-- The arguments of a request for the type. -/
def askedKey (name : String) : Event → Option (List (String × String))
  | .listing r _ => if r.resource = name then some (requestKey (r.path ++ r.query)) else none
  | _ => none

def askedKeys (name : String) (t : List Event) : List (List (String × String)) :=
  t.filterMap (askedKey name)

/-- The objects that are kept for a type. -/
def kept : Outcome Exc (List Value) → List Value
  | .value objects => objects
  | _ => []

variable {respond : Request → List Value} {p : BuiltinProvider} {strict : Bool} {projectId : String}
  {spec : Spec} {c : Collected} {t : List Event}

/-- Somewhere in the history the type was listed for the parents it then had, and what was listed
is kept. -/
def EverListed (respond : Request → List Value) (p : BuiltinProvider) (projectId : String)
    (c : Collected) (t : List Event) (spec : Spec) : Prop :=
  ∃ parents before after, ready parents spec = true ∧
    t = before ++ ((listSpec (steady respond) p spec projectId parents).run before).2 ++ after ∧
    Dict.get? c.objects spec.name =
      some (kept ((listSpec (steady respond) p spec projectId parents).run before).1)

/-! ### The number of passes -/

theorem nestedLoop_nil (cloud : Cloud) (fuel : ℕ) :
    nestedLoop cloud p strict projectId fuel c [] = pure c := by
  cases fuel with
  | zero => rfl
  | succ fuel => rw [nestedLoop, if_pos rfl]

/-- A pass that makes progress leaves fewer types. -/
theorem length_remaining {cloud : Cloud} {pending : List Spec} {s : Pass} {u : List Event}
    (h : (pending.foldlM (nestedStep cloud p strict projectId) ⟨c, [], false⟩).run t =
      (.value s, u)) (hp : s.progressed = true) : s.remaining.length < pending.length := by
  have hpass : Triple True (fun _ => True)
      (pending.foldlM (nestedStep cloud p strict projectId) ⟨c, [], false⟩)
      (InPass (fun _ _ _ => True) c pending pending) (fun _ _ => True) :=
    triple_pass (I := fun _ _ _ => True) fun _ _ _ _ _ => triple_true
  exact (hpass.value trivial h).fewer hp

/-- The number of pending types bounds the passes. -/
theorem nestedLoop_fuel {cloud : Cloud} (fuel fuel' : ℕ) (pending : List Spec)
    (hfuel : pending.length ≤ fuel) (hfuel' : pending.length ≤ fuel') :
    nestedLoop cloud p strict projectId fuel c pending =
      nestedLoop cloud p strict projectId fuel' c pending := by
  induction fuel generalizing fuel' c pending with
  | zero => rw [List.length_eq_zero_iff.1 (by omega : pending.length = 0), nestedLoop_nil, nestedLoop_nil]
  | succ fuel ih =>
    by_cases hnil : pending = []
    · rw [hnil, nestedLoop_nil, nestedLoop_nil]
    · have hpos : 0 < pending.length := List.length_pos_iff.2 hnil
      obtain ⟨fuel', rfl⟩ := Nat.exists_eq_succ_of_ne_zero (by omega : fuel' ≠ 0)
      rw [nestedLoop, nestedLoop, if_neg hnil, if_neg hnil]
      apply bind_congr_of_value
      intro t s u hs
      split_ifs with hp
      · have hlt := length_remaining hs hp
        exact ih fuel' s.remaining (by omega) (by omega)
      · rfl

/-! ### The requests for one type -/

theorem askedKeys_append (name : String) (s u : List Event) :
    askedKeys name (s ++ u) = askedKeys name s ++ askedKeys name u := List.filterMap_append

/-- The history has grown by requests for these arguments. -/
def Asked (name : String) (t : List Event) (keys : List (List (String × String))) (u : List Event) :
    Prop :=
  ∃ s, u = t ++ s ∧ askedKeys name s = keys

variable {name : String} {resourceClass : ResourceClass} {path filter : List (String × Value)}
  {keys : List (List (String × String))}

theorem triple_listAll_asked (hl : p.hasList ≠ false) :
    Triple False (Asked name t keys)
      (listAll (steady respond) p name resourceClass path filter)
      (fun _ => Asked name t (keys ++ [requestKey (path ++ filter)])) (fun _ _ => False) := by
  unfold listAll
  rw [if_neg hl]
  apply triple_bind (M := fun answer u =>
    (∃ objects, answer = .objects objects) ∧ Asked name t (keys ++ [requestKey (path ++ filter)]) u)
  · refine ⟨fun u hu => ?_⟩
    obtain ⟨s, rfl, hs⟩ := hu
    rw [run_send]
    refine ⟨⟨_, rfl⟩, s ++ [.listing (p.request name resourceClass path filter) _],
      List.append_assoc t s _, ?_⟩
    rw [askedKeys_append, hs]
    simp [askedKeys, askedKey, BuiltinProvider.request]
  · intro answer
    apply triple_intro
    rintro u ⟨⟨objects, rfl⟩, hu⟩
    exact triple_pure fun u' hu' => hu' ▸ hu

/-- A proxy without a list method sends nothing. -/
theorem triple_listAll_unlistable {Pre : List Event → Prop} {Post : List Value → List Event → Prop}
    (hl : p.hasList = false) :
    Triple False Pre (listAll (steady respond) p name resourceClass path filter) Post
      (fun _ => Pre) := by
  unfold listAll
  rw [if_pos hl]
  exact triple_throw fun _ => id

theorem triple_listWithProjectFilterFallback_asked :
    Triple False (Asked name t keys)
      (listWithProjectFilterFallback (steady respond) p name resourceClass path filter)
      (fun _ => Asked name t (keys ++ [requestKey (path ++ filter)])) (fun _ => Asked name t keys) := by
  by_cases hl : p.hasList = false
  · apply triple_handle (triple_listAll_unlistable hl)
    intro x
    cases x with
    | other message => exact triple_throw fun _ => id
    | inventory kind message =>
      exact triple_ite (fun _ => triple_throw fun _ => id) fun _ => triple_listAll_unlistable hl
  · apply triple_handle (triple_listAll_asked hl)
    exact fun x => ⟨fun u hu => hu.elim⟩

/-- The keys that are sent so far are remembered, and they are distinct. -/
def Remembers (name : String) (t : List Event)
    (acc : List (List (String × String)) × List Value) (u : List Event) : Prop :=
  acc.1.Nodup ∧ Asked name t acc.1 u

/-- The history has grown by requests with distinct keys. -/
def AskedOnce (name : String) (t u : List Event) : Prop :=
  ∃ keys, keys.Nodup ∧ Asked name t keys u

theorem triple_listCombination_once {combination : List Value}
    (acc : List (List (String × String)) × List Value) :
    Triple False (Remembers spec.name t acc)
      (listCombination (steady respond) p spec projectId acc combination)
      (Remembers spec.name t) (fun _ => AskedOnce spec.name t) := by
  unfold listCombination
  split
  · exact triple_pure fun _ => id
  · rename_i parents _
    apply triple_ite
    · exact fun _ => triple_pure fun _ => id
    · intro hnew
      apply triple_intro
      rintro u ⟨hnodup, hasked⟩
      apply triple_bind (triple_listWithProjectFilterFallback_asked.consequence
        (fun v hv => hv ▸ hasked) (fun _ _ => id) fun _ _ h => ⟨acc.1, hnodup, h⟩)
      intro objects
      apply triple_pure
      intro v hv
      refine ⟨List.nodup_append.2 ⟨hnodup, List.nodup_singleton _, ?_⟩, hv⟩
      rintro key hkey _ hlast rfl
      rw [List.mem_singleton.1 hlast] at hkey
      exact hnew (List.contains_iff_mem.2 hkey)

theorem triple_listSpec_once (parents : List (String × List Value)) :
    Triple False (fun u => u = t) (listSpec (steady respond) p spec projectId parents)
      (fun _ => AskedOnce spec.name t) (fun _ => AskedOnce spec.name t) := by
  have hstart : ∀ u, u = t → Asked spec.name t [] u := fun u hu => ⟨[], by simpa using hu, rfl⟩
  unfold listSpec
  apply triple_ite
  · intro _
    apply triple_bind (M := fun _ => AskedOnce spec.name t)
    · apply triple_listWithProjectFilterFallback_asked.consequence hstart
      · exact fun _ _ h => ⟨_, List.nodup_singleton _, h⟩
      · exact fun _ _ h => ⟨[], List.nodup_nil, h⟩
    · exact fun objects => triple_pure fun _ => id
  · intro _
    split
    · exact triple_pure fun u hu => ⟨[], List.nodup_nil, hstart u hu⟩
    · apply triple_ite
      · exact fun _ => triple_pure fun u hu => ⟨[], List.nodup_nil, hstart u hu⟩
      · intro _
        apply triple_bind (M := Remembers spec.name t)
        · exact (triple_foldlM (fun acc combination _ => triple_listCombination_once acc)
            ([], [])).consequence (fun u hu => ⟨List.nodup_nil, hstart u hu⟩) (fun _ _ => id)
            fun _ _ => id
        · exact fun acc => triple_pure fun u hu => ⟨acc.1, hu.1, hu.2⟩

/-! ### The listing of a ready type -/

/-- A request for another type, or an error. -/
theorem askedKeys_eq_nil {P : Event → Prop} {s : List Event} (hs : ∀ e ∈ s, P e)
    (hP : ∀ e, P e → askedKey name e = none) : askedKeys name s = [] := by
  rw [askedKeys, List.filterMap_eq_nil_iff]
  exact fun e he => hP e (hs e he)

theorem askedKeys_issues {s : List Event} (hs : ∀ e ∈ s, e.isIssue = true) :
    askedKeys name s = [] := by
  apply askedKeys_eq_nil hs
  intro e he
  cases e with
  | issue i => rfl
  | _ => simp [Event.isIssue] at he

theorem askedKeys_other {parents : List (String × List Value)} (h : name ≠ spec.name) :
    askedKeys name ((listSpec (steady respond) p spec projectId parents).run t).2 = [] := by
  have hemits : Emits (fun e => askedKey name e = none)
      (listSpec (steady respond) p spec projectId parents) := by
    apply emits_listSpec
    intro r answer hr
    rw [askedKey, if_neg]
    exact fun he => h (he.symm.trans hr)
  exact askedKeys_eq_nil (hemits t) fun _ => id

/-- The listing of a type ends, with distinct requests. -/
theorem listSpec_once (parents : List (String × List Value)) (u : List Event) :
    ((listSpec (steady respond) p spec projectId parents).run u).1 ≠ .running ∧
      (askedKeys spec.name ((listSpec (steady respond) p spec projectId parents).run u).2).Nodup := by
  have hlist : Triple False (fun v => v = u) (listSpec (steady respond) p spec projectId parents)
      (fun _ => AskedOnce spec.name u) (fun _ => AskedOnce spec.name u) :=
    triple_listSpec_once parents
  have h := hlist.spec u rfl
  rcases hr : (listSpec (steady respond) p spec projectId parents).run u with ⟨a | x | _, s⟩
  all_goals rw [hr] at h
  · obtain ⟨keys, hnodup, s', hs, rfl⟩ := h
    rw [List.append_cancel_left hs]
    exact ⟨nofun, hnodup⟩
  · obtain ⟨keys, hnodup, s', hs, rfl⟩ := h
    rw [List.append_cancel_left hs]
    exact ⟨nofun, hnodup⟩
  · exact h.elim

/-- The history is that of the listing and of the errors recorded after it. -/
def After (listing : Prog (List Value)) (u v : List Event) : Prop :=
  ∃ s, v = u ++ (listing.run u).2 ++ s ∧ ∀ e ∈ s, e.isIssue = true

theorem triple_tolerate_after {listing : Prog (List Value)} {u : List Event}
    (h : (listing.run u).1 ≠ .running) :
    Triple False (fun v => v = u) (tolerate strict name listing)
      (fun objects v => objects = kept (listing.run u).1 ∧ After listing u v)
      (fun _ => After listing u) := by
  have hrun := triple_run listing u
  rw [eq_false h] at hrun
  apply triple_handle (hrun.consequence (fun _ => id) ?_ fun _ _ => id)
  · intro x
    cases x with
    | other message =>
      apply triple_throw
      rintro v ⟨-, rfl⟩
      exact ⟨[], (List.append_nil _).symm, fun e he => by simp at he⟩
    | inventory kind message =>
      apply triple_intro
      rintro v ⟨hraised, rfl⟩
      have hkept : [] = kept (listing.run u).1 := by rw [hraised]; rfl
      apply triple_ite
      · intro _
        apply triple_pure
        rintro v rfl
        exact ⟨hkept, [], (List.append_nil _).symm, fun e he => by simp at he⟩
      · intro _
        apply triple_bind (M := fun _ => After listing u)
        · apply triple_emit
          rintro v rfl
          refine ⟨_, rfl, fun e he => ?_⟩
          rw [List.mem_singleton.1 he]
          rfl
        · exact fun _ => triple_ite (fun _ => triple_throw fun _ => id)
            fun _ => triple_pure fun _ h => ⟨hkept, h⟩
  · rintro objects v ⟨hvalue, rfl⟩
    rw [hvalue]
    exact ⟨rfl, [], (List.append_nil _).symm, fun e he => by simp at he⟩

theorem triple_collectSpec_after {u : List Event} :
    Triple False (fun v => v = u) (collectSpec (steady respond) p strict projectId c spec)
      (fun c' v => After (listSpec (steady respond) p spec projectId c.objects) u v ∧
        c'.objects = Dict.set c.objects spec.name
          (kept ((listSpec (steady respond) p spec projectId c.objects).run u).1))
      (fun _ => After (listSpec (steady respond) p spec projectId c.objects) u) := by
  apply triple_bind ((triple_tolerate_after (listSpec_once c.objects u).1).consequence (fun _ => id)
    (fun _ _ => id) fun _ _ => id)
  intro objects
  apply triple_intro
  rintro v ⟨rfl, hv⟩
  unfold serialize
  cases List.mapM resourceToDict
      (kept ((listSpec (steady respond) p spec projectId c.objects).run u).1) with
  | none => exact triple_bind (triple_throw fun w hw => hw ▸ hv) fun b => triple_pure fun _ h => h
  | some entries =>
    apply triple_bind (M := fun _ w => w = v) (triple_pure fun _ => id)
    exact fun b => triple_pure fun w hw => ⟨hw ▸ hv, rfl⟩

/-! ### The loop -/

theorem EverListed.append (h : EverListed respond p projectId c t spec) (s : List Event) :
    EverListed respond p projectId c (t ++ s) spec := by
  obtain ⟨parents, before, after, hready, rfl, hkept⟩ := h
  exact ⟨parents, before, after ++ s, hready, List.append_assoc _ _ _, hkept⟩

/-- The history has grown by requests with distinct keys for every nested type. -/
def EachOnce (p : BuiltinProvider) (t u : List Event) : Prop :=
  ∃ s, u = t ++ s ∧ ∀ spec ∈ p.nestedSpecs, (askedKeys spec.name s).Nodup

/-- What holds between the passes: nothing is sent for the types that are left, and the others
have been listed. -/
structure Listing (respond : Request → List Value) (p : BuiltinProvider) (projectId : String)
    (t : List Event) (c : Collected) (left : List Spec) (u : List Event) : Prop where
  once : ∃ s, u = t ++ s ∧ (∀ spec ∈ p.nestedSpecs, (askedKeys spec.name s).Nodup) ∧
    ∀ spec ∈ left, askedKeys spec.name s = []
  nested : left.Sublist p.nestedSpecs
  listed : ∀ spec ∈ p.nestedSpecs, spec ∈ left ∨ EverListed respond p projectId c u spec

theorem Listing.eachOnce {left : List Spec} {u : List Event}
    (h : Listing respond p projectId t c left u) : EachOnce p t u := by
  obtain ⟨s, hs, hnodup, -⟩ := h.once
  exact ⟨s, hs, hnodup⟩

theorem listing_start : Listing respond p projectId t c p.nestedSpecs t where
  once := ⟨[], (List.append_nil t).symm, fun _ _ => List.nodup_nil, fun _ _ => rfl⟩
  nested := List.Sublist.refl _
  listed _ := .inl

section Step

variable {pre post : List Spec} {u v : List Event}

/-- A listing of a type that nothing was sent for. -/
theorem Listing.asks (h : Listing respond p projectId t c (pre ++ spec :: post) u)
    (hv : After (listSpec (steady respond) p spec projectId c.objects) u v) :
    ∃ s, v = t ++ s ∧ (∀ spec' ∈ p.nestedSpecs, (askedKeys spec'.name s).Nodup) ∧
      ∀ spec' ∈ pre ++ post, askedKeys spec'.name s = [] := by
  obtain ⟨s, rfl, hnodup, hleft⟩ := h.once
  obtain ⟨issues, rfl, hissues⟩ := hv
  have hsame := hleft spec (List.mem_append_right pre List.mem_cons_self)
  -- the names of the types that are left are distinct
  have hnames := (nodup_nestedSpecs (p := p)).sublist (h.nested.map Spec.name)
  rw [List.map_append, List.map_cons, List.nodup_middle, List.nodup_cons, ← List.map_append]
    at hnames
  refine ⟨s ++ (((listSpec (steady respond) p spec projectId c.objects).run (t ++ s)).2 ++ issues),
    by simp only [List.append_assoc], fun spec' hspec' => ?_, fun spec' hm => ?_⟩
  · rw [askedKeys_append, askedKeys_append, askedKeys_issues hissues, List.append_nil]
    by_cases hname : spec'.name = spec.name
    · rw [hname, hsame]
      exact (listSpec_once c.objects _).2
    · rw [askedKeys_other hname, List.append_nil]
      exact hnodup spec' hspec'
  · have hname : spec'.name ≠ spec.name := fun he => hnames.1 (he ▸ List.mem_map_of_mem hm)
    have hm' : spec' ∈ pre ++ spec :: post := by
      rcases List.mem_append.1 hm with hm | hm
      · exact List.mem_append_left _ hm
      · exact List.mem_append_right _ (List.mem_cons_of_mem _ hm)
    rw [askedKeys_append, askedKeys_append, askedKeys_issues hissues, askedKeys_other hname,
      hleft spec' hm']
    rfl

theorem Listing.keeps {c' : Collected} (h : Listing respond p projectId t c (pre ++ spec :: post) u)
    (hready : ready c.objects spec = true)
    (hv : After (listSpec (steady respond) p spec projectId c.objects) u v)
    (hc' : c'.objects = Dict.set c.objects spec.name
      (kept ((listSpec (steady respond) p spec projectId c.objects).run u).1)) :
    Listing respond p projectId t c' (pre ++ post) v := by
  have hsub : List.Sublist (pre ++ post) (pre ++ spec :: post) :=
    List.Sublist.append_left (List.sublist_cons_self spec post) pre
  have hspec : spec ∈ p.nestedSpecs := h.nested.subset (List.mem_append_right pre List.mem_cons_self)
  refine ⟨h.asks hv, hsub.trans h.nested, fun spec' hspec' => ?_⟩
  obtain ⟨issues, rfl, -⟩ := hv
  by_cases he : spec' = spec
  · rw [he]
    refine .inr ⟨c.objects, u, issues, hready, rfl, ?_⟩
    rw [hc', Dict.get?_set_self]
  · have hname : spec'.name ≠ spec.name := fun hn =>
      he (List.inj_on_of_nodup_map nodup_nestedSpecs hspec' hspec hn)
    rcases h.listed spec' hspec' with hm | hlisted
    · left
      rw [List.mem_append, List.mem_cons] at hm
      rw [List.mem_append]
      rcases hm with hm | hm | hm
      · exact .inl hm
      · exact absurd hm he
      · exact .inr hm
    · right
      obtain ⟨parents, before, after, hready', hu, hkept⟩ := hlisted
      have hlisted' : EverListed respond p projectId c' u spec' :=
        ⟨parents, before, after, hready', hu, by rw [hc', Dict.get?_set_of_ne hname, hkept]⟩
      rw [List.append_assoc]
      exact hlisted'.append _

theorem triple_collectSpec_listing (hready : ready c.objects spec = true) :
    Triple False (Listing respond p projectId t c (pre ++ spec :: post))
      (collectSpec (steady respond) p strict projectId c spec)
      (fun c' v => Listing respond p projectId t c' (pre ++ post) v) (fun _ v => EachOnce p t v) := by
  apply triple_intro
  intro u h
  apply triple_collectSpec_after.consequence (fun _ => id)
  · rintro c' v ⟨hv, hc'⟩
    exact h.keeps hready hv hc'
  · intro _ v hv
    obtain ⟨s, hs, hnodup, -⟩ := h.asks hv
    exact ⟨s, hs, hnodup⟩

end Step

/-! ### The order of the registry -/

/-- Sorting by distinct keys forgets the order. -/
theorem insertionSort_eq_of_perm {α : Type} {r : α → α → Prop} [DecidableRel r] [Std.Total r]
    [IsTrans α r] {l l' : List α} (h : l.Perm l')
    (hr : ∀ a ∈ l, ∀ b ∈ l, r a b → r b a → a = b) : l.insertionSort r = l'.insertionSort r := by
  have hl := List.perm_insertionSort r l
  have hl' := List.perm_insertionSort r l'
  apply List.Perm.eq_of_pairwise _ (List.pairwise_insertionSort r l)
    (List.pairwise_insertionSort r l') (hl.trans (h.trans hl'.symm))
  intro a b ha hb
  exact hr a (hl.subset ha) b (h.symm.subset (hl'.subset hb))

variable {r : Registry}

theorem perm_resources (h : r.entries.Perm p.registry.entries) :
    ({ p with registry := r } : BuiltinProvider).resources.Perm p.resources := h.filter _

/-- A registry has one type of a name. -/
theorem eq_of_name {f : Spec → Bool} {a b : Spec} (ha : a ∈ (p.resources.map specOf).filter f)
    (hb : b ∈ (p.resources.map specOf).filter f) (h : a.name = b.name) : a = b := by
  obtain ⟨ha, ha', -⟩ := mem_specs.1 ha
  obtain ⟨hb, hb', -⟩ := mem_specs.1 hb
  have hclass : a.resourceClass = b.resourceClass := by
    have h₁ := Dict.get?_of_mem nodup_resources ha
    have h₂ := Dict.get?_of_mem nodup_resources hb
    rw [h, h₂] at h₁
    exact (Option.some.inj h₁).symm
  cases a
  cases b
  simp_all

theorem directSpecs_of_perm (h : r.entries.Perm p.registry.entries) :
    ({ p with registry := r } : BuiltinProvider).directSpecs = p.directSpecs := by
  have : Std.Total fun a b : Spec => a.name ≤ b.name := ⟨fun a b => le_total a.name b.name⟩
  have : IsTrans Spec fun a b => a.name ≤ b.name := ⟨fun _ _ _ => le_trans⟩
  apply insertionSort_eq_of_perm (((perm_resources h).map specOf).filter _)
  exact fun a ha b hb hab hba => eq_of_name ha hb (le_antisymm hab hba)

theorem nestedSpecs_of_perm (h : r.entries.Perm p.registry.entries) :
    ({ p with registry := r } : BuiltinProvider).nestedSpecs = p.nestedSpecs := by
  let key : Spec → ℕ ×ₗ String := fun a => toLex (a.placeholders.length, a.name)
  have : Std.Total fun a b : Spec => key a ≤ key b := ⟨fun a b => le_total (key a) (key b)⟩
  have : IsTrans Spec fun a b => key a ≤ key b := ⟨fun _ _ _ => le_trans⟩
  apply insertionSort_eq_of_perm (((perm_resources h).map specOf).filter _)
  intro a ha b hb hab hba
  have hkey : key a = key b := le_antisymm hab hba
  exact eq_of_name ha hb (congrArg (fun k => (ofLex k).2) hkey)

theorem get?_resources_of_perm (h : r.entries.Perm p.registry.entries) (name : String) :
    Dict.get? ({ p with registry := r } : BuiltinProvider).resources name =
      Dict.get? p.resources name := by
  cases hg : Dict.get? p.resources name with
  | some resourceClass =>
    exact Dict.get?_of_mem nodup_resources
      ((perm_resources h).symm.subset (Dict.mem_of_get? hg))
  | none =>
    cases hg' : Dict.get? ({ p with registry := r } : BuiltinProvider).resources name with
    | none => rfl
    | some resourceClass =>
      have hm := (perm_resources h).subset (Dict.mem_of_get? hg')
      rw [Dict.get?_of_mem nodup_resources hm] at hg
      cases hg

/-- The passes over given types do not use the registry. -/
theorem nestedLoop_registry {cloud : Cloud} {projectId : String} (fuel : ℕ) (pending : List Spec) :
    nestedLoop cloud { p with registry := r } strict projectId fuel c pending =
      nestedLoop cloud p strict projectId fuel c pending := by
  have hstep : nestedStep cloud { p with registry := r } strict projectId =
      nestedStep cloud p strict projectId := rfl
  induction fuel generalizing c pending with
  | zero => rfl
  | succ fuel ih =>
    rw [nestedLoop, nestedLoop, hstep]
    simp only [ih]

/-- The collection does not depend on the order of the registry. -/
theorem collectAll_of_perm {cloud : Cloud} {project : Project}
    (h : r.entries.Perm p.registry.entries) :
    BuiltinProvider.collectAll cloud { p with registry := r } strict project =
      p.collectAll cloud strict project := by
  have hdirect : collectDirect cloud { p with registry := r } strict project =
      collectDirect cloud p strict project := by
    unfold collectDirect
    rw [directSpecs_of_perm h]
    rfl
  have hstore : collectObjectStore cloud { p with registry := r } strict =
      collectObjectStore cloud p strict := by
    funext c
    unfold collectObjectStore
    rw [get?_resources_of_perm h, get?_resources_of_perm h]
    rfl
  unfold BuiltinProvider.collectAll
  rw [hdirect, hstore, nestedSpecs_of_perm h]
  simp only [nestedLoop_registry]

/-- The passes end, they send no request for a nested type twice, a type that they do not list has
a placeholder without objects, and the order of the registry is irrelevant to the collection. -/
theorem nestedLoop_worklist (respond : Request → List Value) (p : BuiltinProvider) (strict : Bool)
    (project : Project) (c : Collected) (t : List Event) :
    (∃ o s, (∀ fuel ≥ p.nestedSpecs.length,
        (nestedLoop (steady respond) p strict project.projectId fuel c p.nestedSpecs).run t =
          (o, s)) ∧
      o ≠ .running ∧ (∀ spec ∈ p.nestedSpecs, (askedKeys spec.name s).Nodup) ∧
      ∀ c', o = .value c' → ∀ spec ∈ p.nestedSpecs,
        EverListed respond p project.projectId c' (t ++ s) spec ∨
          ∃ q ∈ spec.placeholders, ∀ name objects, (name, objects) ∈ c'.objects →
            normalizedName name = parentName q → objects = []) ∧
    ∀ r : Registry, r.entries.Perm p.registry.entries →
      BuiltinProvider.collectAll (steady respond) { p with registry := r } strict project =
        p.collectAll (steady respond) strict project := by
  refine ⟨?_, fun r hr => collectAll_of_perm hr⟩
  let m := nestedLoop (steady respond) p strict project.projectId p.nestedSpecs.length c p.nestedSpecs
  have hloop : Triple False (Listing respond p project.projectId t c p.nestedSpecs) m
      (fun c' u => ∃ left, Listing respond p project.projectId t c' left u ∧
        ∀ spec ∈ left, ready c'.objects spec = false) (fun _ => EachOnce p t) :=
    triple_nestedLoop_pending (fun _ _ _ _ => triple_collectSpec_listing) _ _ le_rfl
  have hrun := hloop.spec t listing_start
  refine ⟨(m.run t).1, (m.run t).2, fun fuel hfuel => ?_, ?_⟩
  · rw [nestedLoop_fuel fuel _ p.nestedSpecs hfuel le_rfl]
  rcases hr : m.run t with ⟨c' | x | _, s⟩
  all_goals rw [hr] at hrun
  · obtain ⟨left, h, hleft⟩ := hrun
    obtain ⟨s', hs, hnodup⟩ := h.eachOnce
    refine ⟨nofun, ?_, fun c'' hc spec hspec => ?_⟩
    · rw [List.append_cancel_left hs]
      exact hnodup
    · cases hc
      rcases h.listed spec hspec with hm | hlisted
      · exact .inr (not_ready (hleft spec hm))
      · exact .inl hlisted
  · obtain ⟨s', hs, hnodup⟩ := hrun
    rw [← List.append_cancel_left hs] at hnodup
    exact ⟨nofun, hnodup, nofun⟩
  · exact hrun.elim

end Yggdrasil.Inventory
