import Yggdrasil.Inventory.Completeness
import Yggdrasil.Inventory.Unlisted

/-! Strict runs of both providers: a nested type whose parent types all have objects is listed
for every combination of parents, or is missing, exactly if the provider can list it. The
builtin provider returns without the others. -/

namespace Yggdrasil.Inventory

open Combination Effect Effect.Program Python

namespace Provider

def hierarchy : Provider → Hierarchy
  | .builtin p => p.hierarchy
  | .legacy p => p.hierarchy

def collectAll (cloud : Cloud) (strict : Bool) (project : Project) : Provider → Prog Collected
  | .builtin p => p.collectAll cloud strict project
  | .legacy p => p.collectAll cloud strict project

/-- Every chain of parents leads to types that are listed without parents. The legacy provider
raises an error where one does not. -/
def Reaches : Provider → String → Prop
  | .builtin p, name => p.Grounded name
  | .legacy _, _ => True

/-- What the listing of nested types relies on. -/
def Enumerable (project : Project) (t : List Event) : Provider → Prop
  | .builtin p => p.Enumerable project t
  | .legacy p => p.hierarchy.Unambiguous p.typeNames

end Provider

variable {cloud : Cloud} {provider : Provider} {project : Project} {s : List Event}
  {result : List (String × List Mapping)}

theorem collectAll_of_collect {strict : Bool}
    (h : (provider.collect cloud strict project).run [] = (.value result, s)) :
    ∃ c, (provider.collectAll cloud strict project).run [] = (.value c, s) ∧ c.result = result := by
  cases provider with
  | builtin p =>
    obtain ⟨c, s₁, s₂, hc, hr, rfl⟩ := run_bind_eq_value.1 h
    simp only [run_pure, Prod.mk.injEq, Outcome.value.injEq] at hr
    obtain ⟨rfl, rfl⟩ := hr
    exact ⟨c, by rw [List.append_nil]; exact hc, rfl⟩
  | legacy p =>
    obtain ⟨c, s₁, s₂, hc, hr, rfl⟩ := run_bind_eq_value.1 h
    simp only [run_pure, Prod.mk.injEq, Outcome.value.injEq] at hr
    obtain ⟨rfl, rfl⟩ := hr
    exact ⟨c, by rw [List.append_nil]; exact hc, rfl⟩

/-- A nested type whose parent types all have objects: if a strict run lists it for all its
parents, or finds it missing, then the provider reaches it, and the converse holds where the
provider can match parents. -/
theorem strict_lists_iff_reaches
    (hrun : (provider.collect cloud true project).run [] = (.value result, s)) :
    ∃ c, (provider.collectAll cloud true project).run [] = (.value c, s) ∧ c.result = result ∧
      ∀ type ∈ provider.hierarchy.types,
        (¬∃ q ∈ type.parameters, provider.hierarchy.Childless c.objects q) →
        (provider.hierarchy.Covered s c.objects type ∨
          provider.hierarchy.AnsweredMissing s type.name → provider.Reaches type.name) ∧
        (provider.Enumerable project s → provider.Reaches type.name →
          provider.hierarchy.Covered s c.objects type ∨
            provider.hierarchy.AnsweredMissing s type.name) := by
  obtain ⟨c, hc, hresult⟩ := collectAll_of_collect hrun
  refine ⟨c, hc, hresult, fun type ht hx => ?_⟩
  cases provider with
  | builtin p =>
    obtain ⟨spec, hspec, rfl⟩ := List.mem_map.1 ht
    constructor
    · intro hcovered
      obtain ⟨left, hreached, -⟩ := (triple_collectAll_pending (I := Reached p)
        (fun _ _ hlists _ hasks => reached_direct hlists hasks)
        fun _ _ _ _ hready => triple_collectSpec_reached hready).value rfl hc
      exact hreached.grounded_of_covered hspec hcovered
    · rintro ⟨hu, hfresh, hfilter, hl, hi⟩ hg
      obtain ⟨left, hprogress, hleft⟩ := (triple_collectAll_pending (I := Progress p project)
        (fun _ _ => progress_direct hfresh)
        fun _ _ _ _ hready => triple_collectSpec_progress hu hl hfilter hready).value rfl hc
      exact hprogress.covered_of_grounded hleft hi hspec hx hg
  | legacy p =>
    obtain ⟨m, hm, rfl⟩ := List.mem_map.1 ht
    refine ⟨fun _ => trivial, fun hu _ => ?_⟩
    rcases (triple_collectAll_accounted hu).value trivial hc m hm with
      hcovered | hmissing | hchildless
    · exact .inl hcovered
    · exact .inr hmissing
    · exact absurd hchildless hx

/-! ### Two proxies -/

def computeProject : Project := ⟨"p1", "tenant", .record [("id", .str "p1")]⟩

def serverClass : ResourceClass := ⟨"server", "/servers", true, ["project_id"], []⟩

def attachmentClass : ResourceClass :=
  ⟨"volume_attachment", "/servers/%(server_id)s/os-volume_attachments", true, [], []⟩

def attachmentSpec : Spec := ⟨"volume_attachment", attachmentClass, ["server_id"]⟩

def computeProxy : BuiltinProvider :=
  ⟨⟨"session", "p1"⟩, "compute", "Proxy", true,
    ⟨[("server", serverClass), ("volume_attachment", attachmentClass)], by simp⟩⟩

/-- The one object of every type. -/
def computeEntry : Mapping := [(.str "id", .str "x1")]

def computeCloud : Cloud := fun _ _ => .objects [.dict computeEntry]

def computeEvents : List Event :=
  [.listing (computeProxy.request "server" serverClass [] [("project_id", .str "p1")])
    (.objects [.dict computeEntry]),
   .listing (computeProxy.request "volume_attachment" attachmentClass [("server_id", .str "x1")] [])
    (.objects [.dict computeEntry])]

theorem nestedSpecs_computeProxy : computeProxy.nestedSpecs = [attachmentSpec] := rfl

theorem computeProxy_enumerable : computeProxy.Enumerable computeProject computeEvents where
  unambiguous := by
    intro type ht q hq a ha b hb hqa hqb
    rw [BuiltinProvider.hierarchy, nestedSpecs_computeProxy, List.map_singleton,
      List.mem_singleton] at ht
    subst ht
    rw [List.mem_singleton.1 hq] at hqa hqb
    have hserver : ∀ name ∈ computeProxy.typeNames,
        (normalizedName name == parentName "server_id") = true → name = "server" := by decide
    rw [hserver a ha hqa, hserver b hb hqb]
  fresh := by
    rw [nestedSpecs_computeProxy]
    decide
  filter := by
    rw [nestedSpecs_computeProxy]
    intro spec hspec
    rw [List.mem_singleton.1 hspec]
    decide
  listable := .inl rfl
  identified := by
    intro name o ho spec hspec q hq _
    rw [nestedSpecs_computeProxy, List.mem_singleton] at hspec
    rw [hspec, show attachmentSpec.placeholders = ["server_id"] from rfl, List.mem_singleton] at hq
    have hentry : o = .dict computeEntry := by
      rcases ho with ⟨hidentity, -⟩ | ⟨r, answer, hm, -, ho, -⟩
      · exact absurd hidentity (by decide)
      · simp only [computeEvents, List.mem_cons, List.not_mem_nil, or_false,
          Event.listing.injEq] at hm
        rcases hm with ⟨-, rfl⟩ | ⟨-, rfl⟩ <;> exact List.mem_singleton.1 ho
    rw [hentry, hq]
    rfl

def computeCollected : Collected :=
  ⟨[("server", [.dict computeEntry]), ("volume_attachment", [.dict computeEntry])],
    [("server", [computeEntry]), ("volume_attachment", [computeEntry])]⟩

theorem run_computeProxy :
    (Provider.collect computeCloud true computeProject (.builtin computeProxy)).run [] =
      (.value computeCollected.result, computeEvents) := by
  rfl

theorem run_collectAll_computeProxy :
    (Provider.collectAll computeCloud true computeProject (.builtin computeProxy)).run [] =
      (.value computeCollected, computeEvents) := by
  rfl

theorem computeProxy_reaches : (Provider.builtin computeProxy).Reaches "volume_attachment" := by
  have hspec : attachmentSpec ∈ computeProxy.nestedSpecs := by
    rw [nestedSpecs_computeProxy]
    exact List.mem_singleton_self _
  apply BuiltinProvider.Grounded.nested (fun _ => "server") hspec
  · decide
  · exact fun _ _ => .base (List.mem_singleton_self _)

theorem computeProxy_not_childless :
    ¬(Provider.builtin computeProxy).hierarchy.Childless computeCollected.objects "server_id" := by
  rintro (he | ⟨ht, hn, -⟩)
  · obtain ⟨name, -, hg⟩ := enumerates_iff.1 he
    have hm := Dict.mem_of_get? hg
    simp [computeCollected] at hm
  · rw [show (Provider.builtin computeProxy).hierarchy.types = [attachmentSpec.nestedType] from rfl,
      List.mem_singleton] at ht
    rw [ht] at hn
    exact absurd hn (by decide)

/-- Volume attachments are listed for the servers. -/
theorem computeProxy_lists :
    (Provider.builtin computeProxy).hierarchy.Covered computeEvents computeCollected.objects
        attachmentSpec.nestedType ∨
      (Provider.builtin computeProxy).hierarchy.AnsweredMissing computeEvents
        "volume_attachment" := by
  obtain ⟨c, hc, -, h⟩ := strict_lists_iff_reaches run_computeProxy
  rw [run_collectAll_computeProxy] at hc
  obtain rfl : computeCollected = c := by simpa using hc
  refine (h attachmentSpec.nestedType (List.mem_singleton_self _) ?_).2 computeProxy_enumerable
    computeProxy_reaches
  rintro ⟨q, hq, hchildless⟩
  rw [List.mem_singleton.1 hq] at hchildless
  exact computeProxy_not_childless hchildless

def credentialClass : ResourceClass :=
  ⟨"application_credential", "/users/%(user_id)s/application_credentials", true, [], []⟩

def credentialType : NestedType := ⟨"application_credential", ["user_id"]⟩

/-- The users of an identity service are left out, so nothing lists their credentials. -/
def identityProxy : BuiltinProvider :=
  ⟨⟨"session", "p1"⟩, "identity", "Proxy", true,
    ⟨[("application_credential", credentialClass), ("user", ⟨"user", "/users", true, [], []⟩)],
      by simp⟩⟩

/-- A strict run of the identity service returns without the application credentials. -/
theorem identityProxy_omits :
    ¬∀ (provider : Provider) (cloud : Cloud) (project : Project) (c : Collected) (s : List Event),
      (provider.collectAll cloud true project).run [] = (.value c, s) →
        provider.hierarchy.Complete s c.objects := by
  intro h
  have hcomplete := h (.builtin identityProxy) computeCloud computeProject
    ⟨[("project", [computeProject.raw])], [("project", [[(.str "id", .str "p1")]])]⟩ [] rfl
  have htypes : identityProxy.hierarchy.types = [credentialType] := rfl
  have hmem : credentialType ∈ identityProxy.hierarchy.types := by
    rw [htypes]
    exact List.mem_singleton_self _
  have hnone : ∀ parents,
      ¬identityProxy.hierarchy.Enumerates [("project", [computeProject.raw])] "user_id" parents := by
    intro parents he
    obtain ⟨name, hn, hg⟩ := enumerates_iff.1 he
    have hname := List.mem_singleton.1 (Dict.mem_of_get? hg)
    rw [(Prod.mk.inj hname).1] at hn
    exact absurd hn (by decide)
  rcases hcomplete credentialType hmem with hcovered | ⟨r, answer, hm, -⟩ | ⟨q, hq, hchildless⟩
  · obtain ⟨parents, he⟩ := hcovered.enumerated "user_id" (List.mem_singleton_self _)
    exact hnone parents he
  · simp at hm
  · rw [List.mem_singleton.1 hq] at hchildless
    cases hchildless with
    | listed he => exact hnone [] he
    | nested ht hn =>
      rw [show (Provider.builtin identityProxy).hierarchy.types = [credentialType] from rfl,
        List.mem_singleton] at ht
      rw [ht] at hn
      exact absurd hn (by decide)

end Yggdrasil.Inventory
