import Yggdrasil.Inventory.Provenance

/-! Objects of other projects. A direct listing of either provider and a nested listing of the
builtin provider pass the ownership check; the nested listings of a legacy client and the
walk over the containers of the object store do not. What a provider returns is the
project's when the answers to those requests are. -/

namespace Yggdrasil.Inventory

open Combination Effect Effect.Program Python

/-- The objects of the request are kept without an ownership check. -/
def Request.Unfiltered (r : Request) : Prop :=
  r.Unchecked ∨
    r.path ≠ [] ∧ (r.resourceClass = none ∨ r.service = "object-store" ∧ r.resource = "object")

/-- The answer to a request without an ownership check names no other project. A legacy
client keeps the objects it yields before a failure. -/
def Event.Native (projectId : String) : Event → Prop
  | .listing r (.objects items) =>
    r.Unfiltered → ∀ o ∈ items, belongsToProject o projectId = true
  | .listing r (.failed yielded _) =>
    r.resourceClass = none → r.path ≠ [] → ∀ o ∈ yielded, belongsToProject o projectId = true
  | _ => True

/-- The object was listed in the run and names no other project, or it is the project record,
or the entry of such an object with its container. -/
inductive Native (project : Project) (t : List Event) : Value → Prop
  | record : belongsToProject project.raw project.projectId = true → Native project t project.raw
  | listed {r : Request} {answer : Answer} {o : Value} : .listing r answer ∈ t → o ∈ answer.items →
      belongsToProject o project.projectId = true → Native project t o
  | contained {o container : Value} {entry : Mapping} : Native project t o →
      containedEntry container o = some entry → Native project t (.dict entry)

/-- Every entry is one of an object that names no other project. -/
def NoForeign (project : Project) (t : List Event) (types : List (String × List Mapping)) : Prop :=
  ∀ name entries, (name, entries) ∈ types → ∀ entry ∈ entries,
    ∃ o, Native project t o ∧ EntryOf o entry

variable {project : Project} {t : List Event}

theorem Native.append {o : Value} (h : Native project t o) (s : List Event) :
    Native project (t ++ s) o := by
  induction h with
  | record hb => exact .record hb
  | listed hm ho hb => exact .listed (List.mem_append_left s hm) ho hb
  | contained _ he ih => exact .contained ih he

/-- What the listings of a run establish if their answers are native. -/
def Nativity (project : Project) : Claim := fun t _ o =>
  (∀ e ∈ t, e.Native project.projectId) → Native project t o

theorem evidence_nativity {K : Request → Prop} {service : String}
    (hK : ∀ r, K r → r.service = service)
    (hrecord : service = "identity" → belongsToProject project.raw project.projectId = true) :
    Evidence K (Nativity project) service project where
  mono t s name o h ht := (h fun e he => ht e (List.mem_append_left s he)).append s
  record t hs _ := .record (hrecord hs)
  checked t r items o hm _ _ ho hb _ := .listed hm ho hb
  child t r answer o hm hr hc hp _ ho ht := by
    refine .listed hm ho ?_
    have hn := ht _ hm
    cases answer with
    | objects items =>
      refine hn (.inr ⟨hp, hc.imp_right fun h => ⟨?_, h.2.1⟩⟩) o ho
      rw [hK r hr, h.1]
    | nothing => simp [Answer.items] at ho
    | failed yielded error =>
      rcases hc with hc | ⟨_, _, hc⟩
      · exact hn hc hp o ho
      · cases hc
  container t r items o hm _ hu ho ht := .listed hm ho (ht _ hm (.inl hu) o ho)
  contained t r o container entry _ _ _ h he ht := .contained (h ht) he

/-- In every run that answers the unchecked requests with objects of the project, no collected
object is another project's. -/
theorem collected_native {cloud : Cloud} {provider : Provider} {strict : Bool} {s : List Event}
    {types : List (String × List Mapping)}
    (hrun : (provider.collect cloud strict project).run [] = (.value types, s))
    (hrecord : provider.service = "identity" → belongsToProject project.raw project.projectId = true)
    (hs : ∀ e ∈ s, e.Native project.projectId) : NoForeign project s types := by
  have hback := (triple_collect (evidence_nativity (fun r hr => hr.service) hrecord)).value trivial hrun
  rw [List.nil_append] at hback
  intro name entries hm entry he
  obtain ⟨o, ho, heo⟩ := hback name entries hm entry he
  exact ⟨o, ho hs, heo⟩

/-! ### Snapshots of a share -/

def shareConnection : Connection := ⟨"session", "p1"⟩

def shareProject : Project := ⟨"p1", "tenant", .record [("id", .str "p1")]⟩

/-- A client whose snapshots are listed for a share. -/
def shareClient : LegacyProvider :=
  ⟨shareConnection, "shared-file-system", "manilaclient", "manilaclient",
    ⟨[⟨"shares", true, []⟩, ⟨"snapshots", true, [⟨"share_id", .positionalOrKeyword, false⟩]⟩], by simp⟩⟩

def shareRecord (owner : String) (id : String) : Mapping :=
  stringRecord [("id", id), ("project_id", owner)]

/-- A service with a share of the project and a snapshot of it. -/
def shareCloud (owner : String) : Cloud := fun _ r =>
  .objects [.dict (if r.resource = "shares" then shareRecord "p1" "s1" else shareRecord owner "n1")]

def sharesEvent : Event :=
  .listing ⟨shareConnection, "shared-file-system", "shares", none, [], []⟩
    (.objects [.dict (shareRecord "p1" "s1")])

def snapshotsEvent (owner : String) : Event :=
  .listing ⟨shareConnection, "shared-file-system", "snapshots", none, [("share_id", .str "s1")], []⟩
    (.objects [.dict (shareRecord owner "n1")])

theorem shareClient_native :
    NoForeign shareProject [sharesEvent, snapshotsEvent "p1"]
      [("shares", [shareRecord "p1" "s1"]), ("snapshots", [shareRecord "p1" "n1"])] := by
  refine collected_native (show (Provider.collect (shareCloud "p1") true shareProject
    (.legacy shareClient)).run [] = _ from rfl) (fun h => absurd h (by decide)) fun e he => ?_
  rcases List.mem_cons.1 he with rfl | he
  · rintro (hu | ⟨hp, _⟩)
    · exact absurd hu.2.1 (by decide)
    · exact absurd rfl hp
  · rw [List.mem_singleton.1 he]
    intro _ o ho
    rw [List.mem_singleton.1 ho]
    decide

theorem run_shareClient :
    (Provider.collect (shareCloud "p2") true shareProject (.legacy shareClient)).run [] =
      (.value [("shares", [shareRecord "p1" "s1"]), ("snapshots", [shareRecord "p2" "n1"])],
        [sharesEvent, snapshotsEvent "p2"]) := by
  rfl

theorem native_share {o : Value} (h : Native shareProject [sharesEvent, snapshotsEvent "p2"] o) :
    ∃ m, o = .dict m ∧
      (IsEntry [("id", "p1")] m ∨ IsEntry [("id", "s1"), ("project_id", "p1")] m) := by
  induction h with
  | record => exact ⟨_, rfl, .inl (.inl rfl)⟩
  | listed hm ho hb =>
    simp only [sharesEvent, snapshotsEvent, List.mem_cons, List.not_mem_nil, or_false,
      Event.listing.injEq] at hm
    rcases hm with ⟨rfl, rfl⟩ | ⟨rfl, rfl⟩
    · exact ⟨_, List.mem_singleton.1 ho, .inr (.inl rfl)⟩
    · rw [List.mem_singleton.1 ho] at hb
      exact absurd hb (by decide)
  | contained _ he ih =>
    obtain ⟨m, rfl, hm⟩ := ih
    exact ⟨_, rfl, hm.imp (fun h => isEntry_entryOf (by decide) h (.inr ⟨_, he⟩))
      fun h => isEntry_entryOf (by decide) h (.inr ⟨_, he⟩)⟩

/-- A snapshot of another project, listed for a share of the project, is collected. -/
theorem shareClient_foreign : ∃ (cloud : Cloud) (provider : Provider) (strict : Bool)
    (project : Project) (s : List Event) (types : List (String × List Mapping)),
    (provider.collect cloud strict project).run [] = (.value types, s) ∧
      ¬NoForeign project s types := by
  refine ⟨shareCloud "p2", .legacy shareClient, true, shareProject, _, _, run_shareClient, fun h => ?_⟩
  obtain ⟨o, ho, he⟩ := h "snapshots" [shareRecord "p2" "n1"] (by simp) (shareRecord "p2" "n1") (by simp)
  obtain ⟨m, rfl, hm | hm⟩ := native_share ho
  · rcases isEntry_entryOf (by decide) hm he with h | ⟨c, h⟩ <;> simp [shareRecord, stringRecord] at h
  · rcases isEntry_entryOf (by decide) hm he with h | ⟨c, h⟩ <;> simp [shareRecord, stringRecord] at h

end Yggdrasil.Inventory
