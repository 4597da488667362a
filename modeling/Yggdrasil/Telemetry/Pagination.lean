import Yggdrasil.Library.Effect
import Yggdrasil.Library.Orbit
import Yggdrasil.Python.Url
import Yggdrasil.Python.Value

/-! The pollster of the capsule CPU meter: the paginated capsule list and the samples. The body
of `for capsule in self._capsules(...)` is an argument of the generator, which runs it at every
`yield`. The loop over the pages runs on fuel. -/

namespace Yggdrasil.Telemetry

open Effect Effect.Program Python

inductive Exc where
  | request
  | http (status : ℤ)
  | json
  | valueError
  | typeError
  | attributeError
  | runtimeError (text : String)
  deriving DecidableEq

structure Response where
  statusCode : ℤ
  hasContent : Bool
  json : Except Exc Value

/-- A response, or the exception of `session.get`. -/
abbrev Answer := Except Exc Response

abbrev Params := List (String × ℕ)

structure Sample where
  name : String
  unit : String
  volume : String
  userId : Value
  projectId : Value
  resourceId : Value
  metadata : List (String × Value)

inductive Event where
  | get (url : String) (params : Option Params) (answer : Answer)
  | capsule (value : Value)
  | sample (s : Sample)
  | warning

/-- The server, `float` on a text, and the checks `urlsplit` makes on a network location. -/
structure World where
  answer : List Event → String → Option Params → Answer
  float : String → Option String
  checkNetloc : Url.Text → Bool

abbrev Prog := Program Event Exc

variable (w : World)

/-! ### Requests -/

def sessionGet (url : String) (params : Option Params) : Prog Answer := do
  let t ← history
  let answer := w.answer t url params
  emit (.get url params answer)
  return answer

/-- `_json`. -/
def Response.payload (r : Response) : Except Exc Value :=
  if 400 ≤ r.statusCode ∧ r.statusCode < 600 then .error (.http r.statusCode)
  else if r.hasContent then r.json
  else .ok (.dict [])

def Answer.payload (a : Answer) : Except Exc Value := do
  let response ← a
  response.payload

def urljoin (base url : String) : Except Exc String :=
  match Url.urljoin w.checkNetloc base.toList url.toList with
  | some text => .ok (String.ofList text)
  | none => .error .valueError

def urlsplit (url : String) : Except Exc Url.Parts :=
  match Url.urlsplit w.checkNetloc url.toList [] with
  | some parts => .ok parts
  | none => .error .valueError

/-- `value.get(key, default)`. -/
def getItem (value : Value) (key : String) (default : Value) : Except Exc Value :=
  match value with
  | .dict items => .ok ((Dict.get? items (.str key)).getD default)
  | _ => .error .attributeError

/-- What a `for` statement runs through. -/
def iterate : Value → Except Exc (List Value)
  | .seq _ items => .ok items
  | .str s => .ok (s.toList.map fun c => .str (String.singleton c))
  | .dict items => .ok (items.map fun p => .str p.1.text)
  | _ => .error .typeError

/-! ### Pages -/

/-- The capsules of a page, and none where the page has no list of them. -/
def pageCapsules (payload : Value) : Except Exc (List Value) := do
  let capsules ← getItem payload "capsules" (.list [])
  iterate capsules

/-- The URL of the next page, empty after the last one. A base that is empty hands the link on,
which the next `urlsplit` refuses unless it is a text. -/
def nextUrl (base : String) (payload : Value) : Except Exc String := do
  let next ← getItem payload "next" .none
  if !next.truthy then return ""
  match next with
  | .str url => urljoin w base url
  | .seq .. | .dict _ => .error .typeError
  | _ => .error (if base = "" then .attributeError else .typeError)

def firstParams : Params := [("all_projects", 1), ("limit", 1000)]

/-- A URL of the scheme and the network location of the base. -/
def checkHost (baseParts : Url.Parts) (url : String) : Except Exc Unit := do
  let parts ← urlsplit w url
  if (parts.scheme, parts.netloc) ≠ (baseParts.scheme, baseParts.netloc) then
    .error (.runtimeError "Zun capsule pagination returned a different host")
  else .ok ()

variable (visit : Value → Prog Unit) (base : String) (baseParts : Url.Parts)

def capsulesLoop : ℕ → String → Option Params → Prog Unit
  | 0, _, _ => diverge
  | fuel + 1, url, params =>
    if url = "" then pure ()
    else do
      ofExcept (checkHost w baseParts url)
      let answer ← sessionGet w url params
      let payload ← ofExcept answer.payload
      let capsules ← ofExcept (pageCapsules payload)
      capsules.forM visit
      let next ← ofExcept (nextUrl w base payload)
      capsulesLoop fuel next none

/-- `_capsules` with the body of the loop that consumes it. -/
def capsulesFor (fuel : ℕ) : Prog Unit := do
  let url ← ofExcept (urljoin w base "capsules/")
  let baseParts ← ofExcept (urlsplit w base)
  capsulesLoop w visit base baseParts fuel url (some firstParams)

def yieldCapsule (value : Value) : Prog Unit := emit (.capsule value)

/-- `_capsules` on its own. -/
def capsules (fuel : ℕ) : Prog Unit := capsulesFor w yieldCapsule base fuel

/-! ### Samples -/

def meterName : String := "yggdrasil.zun.capsule.cpu_util"

def resourceIdPrefix : String := "yggdrasil_senlin_capsule_"

/-- The `stats_info` of a payload that has one, which must then be a mapping to count. -/
def statsPart (payload : Value) : Value :=
  match payload with
  | .dict items =>
    match Dict.get? items (.str "stats_info") with
    | some (.dict stats) => .dict stats
    | _ => payload
  | _ => payload

def cpuOf (payload : Value) : Except Exc (Option String) := do
  let value ← getItem (statsPart payload) "CPU %" .none
  if value.isNone then return none
  let text := (strip value.toStr).toList
  let number := String.ofList (text.reverse.dropWhile (· == '%')).reverse
  match w.float number with
  | some volume => return some volume
  | none => .error .valueError

/-- `_capsule_cpu`; the handler covers the request and the reading of its answer. -/
def capsuleCpu (capsuleId : Value) : Prog (Option String) :=
  handle (do
    let url ← ofExcept (urljoin w base ("capsules/" ++ capsuleId.toStr ++ "/stats"))
    let answer ← sessionGet w url (some [("all_projects", 1)])
    let payload ← ofExcept answer.payload
    ofExcept (cpuOf w payload))
  fun _ => do
    emit .warning
    return none

/-- The body of the loop of `get_samples`. -/
def sampleCapsule (capsule : Value) : Prog Unit := do
  let metaLabels ← ofExcept (getItem capsule "meta_labels" .none)
  let oldLabels ← ofExcept (getItem capsule "labels" .none)
  let labels := (metaLabels.orElse oldLabels).orElse (.dict [])
  let clusterId ← ofExcept (getItem labels "yggdrasil_senlin_cluster_id" .none)
  if clusterId.truthy then do
    let uuid ← ofExcept (getItem capsule "uuid" .none)
    let id ← ofExcept (getItem capsule "id" .none)
    let capsuleId := uuid.orElse id
    let label ← ofExcept (getItem labels "yggdrasil_senlin_node_id" .none)
    let nodeId := label.orElse capsuleId
    if !capsuleId.truthy || !nodeId.truthy then emit .warning
    else do
      let cpu ← capsuleCpu w base capsuleId
      match cpu with
      | none => pure ()
      | some volume => do
        let userId ← ofExcept (getItem capsule "user_id" .none)
        let projectId ← ofExcept (getItem capsule "project_id" .none)
        let name ← ofExcept (getItem capsule "name" (.str ""))
        emit (.sample ⟨meterName, "%", volume, userId, projectId, capsuleId,
          [("yggdrasil_senlin_resource_id",
              .str (resourceIdPrefix ++ clusterId.toStr ++ "_" ++ nodeId.toStr)),
            ("cluster_id", .str clusterId.toStr), ("node_id", .str nodeId.toStr),
            ("display_name", name)]⟩)
  else pure ()

/-- The endpoint of the catalog with one slash at its end. -/
def baseUrl (endpoint : String) : String :=
  String.ofList ((endpoint.toList.reverse.dropWhile (· == '/')).reverse ++ ['/'])

def getSamples (endpoint : Option String) (fuel : ℕ) : Prog Unit :=
  match endpoint.filter (· ≠ "") with
  | none => throw (.runtimeError "No Zun endpoint is registered in the service catalog")
  | some endpoint =>
    capsulesFor w (sampleCapsule w (baseUrl endpoint)) (baseUrl endpoint) fuel

/-! ### What a run requests, receives and yields -/

abbrev Request := String × Option Params

def Event.request : Event → Option Request
  | .get url params _ => some (url, params)
  | _ => none

/-- The page an event receives: the payload of an answer that carries one. -/
def Event.page : Event → Option Value
  | .get _ _ answer => answer.payload.toOption
  | _ => none

def Event.yield : Event → Option Value
  | .capsule value => some value
  | _ => none

def requests (events : List Event) : List Request := events.filterMap Event.request

def pages (events : List Event) : List Value := events.filterMap Event.page

def yielded (events : List Event) : List Value := events.filterMap Event.yield

def itemsOf (payload : Value) : List Value := (pageCapsules payload).toOption.getD []

/-- The request goes to the scheme and the network location of the base, and the URL spells them
where the base has both. -/
def GoesTo (base url : String) : Prop :=
  ∃ b p, urlsplit w base = .ok b ∧ urlsplit w url = .ok p ∧ p.scheme = b.scheme ∧
    p.netloc = b.netloc ∧
      (b.scheme ≠ [] → b.netloc ≠ [] → Url.Spells b.scheme b.netloc url.toList)

variable {w base baseParts}

theorem urlsplit_eq_ok {url : String} {p : Url.Parts} (h : urlsplit w url = .ok p) :
    Url.urlsplit w.checkNetloc url.toList [] = some p := by
  unfold urlsplit at h
  split at h
  · rename_i parts hp
    rw [hp, Except.ok.inj h]
  · exact nomatch h

theorem goesTo_of_checkHost {url : String} (hb : urlsplit w base = .ok baseParts)
    (h : checkHost w baseParts url = .ok ()) : GoesTo w base url := by
  unfold checkHost at h
  rcases hp : urlsplit w url with x | p
  · rw [hp] at h
    exact nomatch h
  · rw [hp] at h
    change (if _ then _ else _) = _ at h
    split_ifs at h with hne
    rw [not_not, Prod.mk.injEq] at hne
    refine ⟨baseParts, p, hb, hp, hne.1, hne.2, fun hs hn => ?_⟩
    rw [← hne.1] at hs
    rw [← hne.2] at hn
    rw [← hne.1, ← hne.2]
    exact Url.spells_of_urlsplit w.checkNetloc (urlsplit_eq_ok hp) hs hn

/-! ### One turn of the loop -/

/-- What a turn does with the answer to its request: the next URL, after the visits. -/
def turn (w : World) (visit : Value → Prog Unit) (base : String) (answer : Answer) :
    Prog String := do
  let payload ← ofExcept answer.payload
  let capsules ← ofExcept (pageCapsules payload)
  capsules.forM visit
  ofExcept (nextUrl w base payload)

theorem capsulesLoop_succ (fuel : ℕ) (url : String) (params : Option Params) :
    capsulesLoop w visit base baseParts (fuel + 1) url params =
      if url = "" then pure ()
      else (do
        ofExcept (checkHost w baseParts url)
        let answer ← sessionGet w url params
        let next ← turn w visit base answer
        capsulesLoop w visit base baseParts fuel next none) := by
  simp only [capsulesLoop, turn, bind_assoc]

/-- The URL a turn ends with, if it does not raise. -/
def nextOf (w : World) (base : String) (answer : Answer) : Except Exc String := do
  let payload ← answer.payload
  let _ ← pageCapsules payload
  nextUrl w base payload

def answerItems (answer : Answer) : List Value := (answer.payload.toOption.map itemsOf).getD []

theorem run_forM_yield : ∀ (l : List Value) (t : List Event),
    (l.forM yieldCapsule).run t = (.value (), l.map .capsule)
  | [], t => rfl
  | v :: l, t => by
    rw [List.forM_eq_forM, List.forM_cons, run_bind]
    simp only [yieldCapsule, run_emit]
    rw [← List.forM_eq_forM, run_forM_yield l]
    rfl

def outcomeOf {α : Type} : Except Exc α → Outcome Exc α
  | .ok a => .value a
  | .error x => .raised x

theorem nextOf_eq {answer : Answer} {payload : Value} (h : answer.payload = .ok payload) :
    nextOf w base answer = (pageCapsules payload).bind fun _ => nextUrl w base payload := by
  rw [nextOf, h]
  rfl

theorem run_turn_yield (answer : Answer) (t : List Event) :
    (turn w yieldCapsule base answer).run t =
      (outcomeOf (nextOf w base answer), (answerItems answer).map .capsule) := by
  rcases hp : answer.payload with x | payload
  · rw [turn, nextOf, answerItems, hp]
    rfl
  · rw [turn, nextOf_eq hp, answerItems, hp, run_bind, run_ofExcept_ok]
    simp only [itemsOf, Except.toOption, Option.map_some, Option.getD_some, List.append_nil,
      List.nil_append]
    rcases hc : pageCapsules payload with x | capsules
    · rfl
    · rw [run_bind, run_ofExcept_ok]
      simp only [List.append_nil, List.nil_append]
      rw [run_bind, run_forM_yield]
      rcases nextUrl w base payload with x | next
      · simp [outcomeOf, Except.bind]
      · simp [outcomeOf, Except.bind]

/-- The loop, turn after turn, of the generator on its own. -/
theorem run_capsulesLoop {fuel : ℕ} {url : String} {params : Option Params} {t : List Event}
    (hu : url ≠ "") (hh : checkHost w baseParts url = .ok ()) :
    let answer := w.answer t url params
    let turned := .get url params answer :: (answerItems answer).map Event.capsule
    (capsulesLoop w yieldCapsule base baseParts (fuel + 1) url params).run t =
      match nextOf w base answer with
      | .error x => (.raised x, turned)
      | .ok next =>
        let r := (capsulesLoop w yieldCapsule base baseParts fuel next none).run (t ++ turned)
        (r.1, turned ++ r.2) := by
  intro answer turned
  rw [capsulesLoop_succ, if_neg hu, hh, run_bind, run_ofExcept_ok]
  simp only [List.append_nil, List.nil_append]
  have hget : (sessionGet w url params).run t = (.value answer, [.get url params answer]) := rfl
  rw [run_bind_value hget, run_bind, run_turn_yield]
  rcases nextOf w base answer with x | next
  · rfl
  · simp [outcomeOf, turned]

theorem run_capsulesLoop_end (fuel : ℕ) (params : Option Params) (t : List Event) :
    (capsulesLoop w visit base baseParts (fuel + 1) "" params).run t = (.value (), []) := rfl

theorem run_capsulesLoop_refused {url : String} {x : Exc} (hu : url ≠ "")
    (hh : checkHost w baseParts url = .error x) (fuel : ℕ) (params : Option Params)
    (t : List Event) :
    (capsulesLoop w visit base baseParts (fuel + 1) url params).run t = (.raised x, []) := by
  rw [capsulesLoop_succ, if_neg hu, hh, run_bind, run_ofExcept_error]

/-! ### The endpoint and the pages -/

/-- Every request goes to the endpoint, and the capsules are those of the pages, in order. -/
def Faithful (w : World) (base : String) (events : List Event) : Prop :=
  (∀ url params answer, Event.get url params answer ∈ events → GoesTo w base url) ∧
    yielded events = (pages events).flatMap itemsOf

theorem faithful_nil : Faithful w base [] :=
  ⟨fun _ _ _ h => absurd h List.not_mem_nil, rfl⟩

theorem Faithful.append {s s' : List Event} (h : Faithful w base s) (h' : Faithful w base s') :
    Faithful w base (s ++ s') := by
  constructor
  · intro url params answer he
    exact (List.mem_append.1 he).elim (h.1 url params answer) (h'.1 url params answer)
  · rw [yielded, pages, List.filterMap_append, List.filterMap_append, List.flatMap_append]
    exact congrArg₂ _ h.2 h'.2

theorem filterMap_visits {β : Type} {f : Event → Option β} (hf : ∀ v, f (.capsule v) = none)
    (items : List Value) : (items.map Event.capsule).filterMap f = [] := by
  simp [List.filterMap_map, hf]

theorem pages_turned (url : String) (params : Option Params) (answer : Answer)
    (items : List Value) :
    pages (.get url params answer :: items.map Event.capsule) = answer.payload.toOption.toList := by
  rw [pages, List.filterMap_cons, filterMap_visits fun _ => rfl, Event.page]
  cases answer.payload.toOption <;> rfl

theorem yielded_turned (url : String) (params : Option Params) (answer : Answer)
    (items : List Value) : yielded (.get url params answer :: items.map Event.capsule) = items := by
  have hget : (Event.get url params answer).yield = none := rfl
  rw [yielded, List.filterMap_cons, hget]
  simp [List.filterMap_map, Function.comp_def, Event.yield]

theorem faithful_turned {url : String} (params : Option Params) (answer : Answer)
    (h : GoesTo w base url) :
    Faithful w base (.get url params answer :: (answerItems answer).map Event.capsule) := by
  constructor
  · intro url' params' answer' he
    rcases List.mem_cons.1 he with he | he
    · exact (Event.get.inj he).1 ▸ h
    · obtain ⟨v, -, hv⟩ := List.mem_map.1 he
      exact nomatch hv
  · rw [yielded_turned, pages_turned, answerItems]
    cases answer.payload.toOption <;> simp

theorem faithful_capsulesLoop (hb : urlsplit w base = .ok baseParts) (fuel : ℕ) :
    ∀ (url : String) (params : Option Params) (t : List Event),
      Faithful w base ((capsulesLoop w yieldCapsule base baseParts fuel url params).run t).2 := by
  induction fuel with
  | zero => exact fun _ _ _ => faithful_nil
  | succ fuel ih =>
    intro url params t
    by_cases hu : url = ""
    · rw [hu, run_capsulesLoop_end]
      exact faithful_nil
    rcases hh : checkHost w baseParts url with x | ok
    · rw [run_capsulesLoop_refused _ hu hh]
      exact faithful_nil
    · have hturned := faithful_turned params (w.answer t url params) (goesTo_of_checkHost hb hh)
      rw [run_capsulesLoop hu hh]
      rcases nextOf w base (w.answer t url params) with x | next
      · exact hturned
      · exact hturned.append (ih next none _)

/-- The generator sends every request to the endpoint, and yields the capsules of the pages it
receives, whatever the server links to. -/
theorem capsules_faithful (w : World) (base : String) (fuel : ℕ) (t : List Event) :
    Faithful w base ((capsules w base fuel).run t).2 := by
  unfold capsules capsulesFor
  rcases urljoin w base "capsules/" with x | url
  · exact faithful_nil
  rcases hb : urlsplit w base with x | baseParts
  · exact faithful_nil
  · rw [run_bind, run_ofExcept_ok]
    simp only [List.nil_append]
    rw [run_bind, run_ofExcept_ok]
    exact faithful_capsulesLoop hb fuel url _ _

/-! ### The end of the loop -/

/-- A server whose pages depend on the request alone. -/
def siteWorld (server : String → Option Params → Answer) (float : String → Option String)
    (checkNetloc : Url.Text → Bool) : World := ⟨fun _ => server, float, checkNetloc⟩

variable {server : String → Option Params → Answer} {float : String → Option String}
  {checkNetloc : Url.Text → Bool}

/-- The request the loop makes with a URL, unless it ends there. -/
def admitted (w : World) (baseParts : Url.Parts) (url : String) (params : Option Params) :
    Option Request :=
  if url = "" then none
  else match checkHost w baseParts url with
    | .ok () => some (url, params)
    | .error _ => none

/-- The request after a request. -/
def follow (w : World) (base : String) (baseParts : Url.Parts)
    (server : String → Option Params → Answer) (r : Request) : Option Request :=
  match nextOf w base (server r.1 r.2) with
  | .ok next => admitted w baseParts next none
  | .error _ => none

theorem requests_turned (url : String) (params : Option Params) (answer : Answer)
    (items : List Value) (s : List Event) :
    requests ((.get url params answer :: items.map Event.capsule) ++ s) =
      (url, params) :: requests s := by
  have hget : (Event.get url params answer).request = some (url, params) := rfl
  rw [requests, List.filterMap_append, List.filterMap_cons, hget, filterMap_visits fun _ => rfl]
  rfl

theorem trace_none (f : Request → Option Request) (n : ℕ) : Orbit.trace f n none = [] := by
  cases n <;> rfl

/-- The requests are the run of `follow`, and the loop ends where that run does. -/
theorem requests_capsulesLoop (server : String → Option Params → Answer)
    (float : String → Option String) (checkNetloc : Url.Text → Bool) (base : String)
    (baseParts : Url.Parts) (fuel : ℕ) :
    ∀ (url : String) (params : Option Params) (t : List Event),
      let w := siteWorld server float checkNetloc
      let r := (capsulesLoop w yieldCapsule base baseParts fuel url params).run t
      let trace := fun n =>
        Orbit.trace (follow w base baseParts server) n (admitted w baseParts url params)
      requests r.2 = trace fuel ∧ ((trace fuel).length < fuel → r.1 ≠ .running) ∧
        (r.1 ≠ .running → (trace (fuel + 1)).length < fuel + 1) := by
  induction fuel with
  | zero => exact fun _ _ _ => ⟨rfl, fun h => absurd h (Nat.not_lt_zero _), fun h => absurd rfl h⟩
  | succ fuel ih =>
    intro url params t w r trace
    by_cases hu : url = ""
    · have hadmit : admitted w baseParts url params = none := by rw [admitted, if_pos hu]
      have hr : r = (.value (), []) := by simp only [r, hu, run_capsulesLoop_end]
      simp only [hr, trace, hadmit, trace_none]
      exact ⟨rfl, by simp, by simp⟩
    rcases hh : checkHost w baseParts url with x | ok
    · have hadmit : admitted w baseParts url params = none := by rw [admitted, if_neg hu, hh]
      have hr : r = (.raised x, []) := run_capsulesLoop_refused _ hu hh fuel params t
      simp only [hr, trace, hadmit, trace_none]
      exact ⟨rfl, by simp, by simp⟩
    · have hadmit : admitted w baseParts url params = some (url, params) := by
        rw [admitted, if_neg hu, hh]
      have hr : r = _ := run_capsulesLoop hu hh
      have hanswer : w.answer t url params = server url params := rfl
      simp only [hanswer] at hr
      simp only [trace, hadmit, Orbit.trace, follow]
      have hturned := requests_turned url params (server url params)
        (answerItems (server url params))
      rcases hn : nextOf w base (server url params) with x | next
      · simp only [hn] at hr
        simp only [hr, trace_none]
        refine ⟨?_, by simp, by simp⟩
        simpa [requests] using hturned []
      · simp only [hn] at hr
        obtain ⟨hreq, hend, hended⟩ := ih next none (t ++ .get url params (server url params) ::
          (answerItems (server url params)).map Event.capsule)
        simp only [hr, hturned, List.length_cons, Nat.succ_lt_succ_iff]
        exact ⟨by rw [hreq], hend, hended⟩

/-! ### The samples -/

theorem triple_forM {α : Type} {I : List Event → Prop} {Err : Exc → List Event → Prop}
    {f : α → Prog Unit} (hf : ∀ a, Triple False I (f a) (fun _ => I) Err) :
    ∀ l : List α, Triple False I (l.forM f) (fun _ => I) Err
  | [] => triple_pure fun _ h => h
  | a :: l => by
    rw [List.forM_eq_forM, List.forM_cons]
    exact triple_bind (hf a) fun _ => triple_forM hf l

/-- A program that ends, with a value or an exception. -/
abbrev Ends {α : Type} (m : Prog α) : Prop :=
  Triple False (fun _ => True) m (fun _ _ => True) fun _ _ => True

theorem ends_ofExcept {α : Type} (r : Except Exc α) : Ends (ofExcept r) :=
  triple_ofExcept (fun _ _ _ _ => trivial) fun _ _ _ _ => trivial

theorem ends_emit (e : Event) : Ends (emit e) := triple_emit fun _ _ => trivial

theorem ends_sessionGet (url : String) (params : Option Params) : Ends (sessionGet w url params) :=
  ⟨fun _ _ => trivial⟩

theorem ends_capsuleCpu (capsuleId : Value) : Ends (capsuleCpu w base capsuleId) := by
  refine triple_handle (M := fun _ _ => True) ?_ fun _ =>
    triple_bind (ends_emit _) fun _ => triple_pure fun _ _ => trivial
  refine triple_bind (ends_ofExcept _) fun _ => triple_bind (ends_sessionGet _ _) fun _ => ?_
  exact triple_bind (ends_ofExcept _) fun _ => ends_ofExcept _

theorem ends_sampleCapsule (capsule : Value) : Ends (sampleCapsule w base capsule) := by
  refine triple_bind (ends_ofExcept _) fun _ => triple_bind (ends_ofExcept _) fun _ => ?_
  refine triple_bind (ends_ofExcept _) fun clusterId => triple_ite (fun _ => ?_) fun _ =>
    triple_pure fun _ _ => trivial
  refine triple_bind (ends_ofExcept _) fun _ => triple_bind (ends_ofExcept _) fun _ => ?_
  refine triple_bind (ends_ofExcept _) fun _ => triple_ite (fun _ => ends_emit _) fun _ => ?_
  refine triple_bind (ends_capsuleCpu _) fun cpu => ?_
  cases cpu with
  | none => exact triple_pure fun _ _ => trivial
  | some volume =>
    refine triple_bind (ends_ofExcept _) fun _ => triple_bind (ends_ofExcept _) fun _ => ?_
    exact triple_bind (ends_ofExcept _) fun _ => ends_emit _

/-- A turn whose visits end goes on as the generator on its own does, or raises. -/
theorem triple_turn {visit : Value → Prog Unit} (hv : ∀ v, Ends (visit v)) (answer : Answer) :
    Triple False (fun _ => True) (turn w visit base answer)
      (fun next _ => nextOf w base answer = .ok next) fun _ _ => True := by
  rcases hp : answer.payload with x | payload
  · rw [turn, hp]
    exact triple_throw fun _ _ => trivial
  · have hbind : ∀ {α β : Type} (a : α) (k : α → Prog β), ofExcept (.ok a) >>= k = k a :=
      fun a k => pure_bind a k
    rw [turn, hp, nextOf_eq hp, hbind]
    rcases pageCapsules payload with x | capsules
    · exact triple_throw fun _ _ => trivial
    · rw [hbind]
      refine triple_bind (triple_forM hv capsules) fun _ => ?_
      exact triple_ofExcept (fun _ _ hn _ => hn) fun _ _ _ _ => trivial

/-- A loop with visits that end is running only where the generator on its own is. -/
theorem running_of_visits {visit : Value → Prog Unit} (hv : ∀ v, Ends (visit v)) (fuel : ℕ) :
    ∀ (url : String) (params : Option Params) (t t' : List Event),
      let w := siteWorld server float checkNetloc
      ((capsulesLoop w visit base baseParts fuel url params).run t).1 = .running →
        ((capsulesLoop w yieldCapsule base baseParts fuel url params).run t').1 = .running := by
  induction fuel with
  | zero => exact fun _ _ _ _ _ => rfl
  | succ fuel ih =>
    intro url params t t' w h
    by_cases hu : url = ""
    · rw [hu, run_capsulesLoop_end] at h
      exact nomatch h
    rcases hh : checkHost w baseParts url with x | ok
    · rw [run_capsulesLoop_refused _ hu hh] at h
      exact nomatch h
    · rw [run_capsulesLoop hu hh]
      have hanswer : w.answer t' url params = server url params := rfl
      have hget : (sessionGet w url params).run t =
        (.value (server url params), [.get url params (server url params)]) := rfl
      rw [capsulesLoop_succ, if_neg hu, hh, run_bind, run_ofExcept_ok] at h
      simp only [List.append_nil] at h
      rw [run_bind_value hget, run_bind] at h
      have htriple : Triple False (fun _ => True) (turn w visit base (server url params))
          (fun next _ => nextOf w base (server url params) = .ok next) fun _ _ => True :=
        triple_turn hv _
      have hturn := htriple.spec (t ++ [.get url params (server url params)]) trivial
      rcases hr : (turn w visit base (server url params)).run
        (t ++ [.get url params (server url params)]) with ⟨next | x | _, s⟩
      · rw [hr] at h hturn
        simp only [hanswer, hturn]
        exact ih next none _ _ h
      · rw [hr] at h
        exact nomatch h
      · rw [hr] at hturn
        exact hturn.elim

/-- The URLs that the pages of a server lead to. -/
def linked (w : World) (base : String) (server : String → Option Params → Answer) : Set String :=
  {next | ∃ url params, nextOf w base (server url params) = .ok next}

theorem finite_reached (baseParts : Url.Parts) (hfin : (linked w base server).Finite)
    (o : Option Request) :
    {r | ∃ i, (Orbit.advance (follow w base baseParts server))^[i] o = some r}.Finite := by
  have hstart : {r | o = some r}.Finite := Set.Subsingleton.finite fun _ ha _ hb =>
    Option.some.inj (ha.symm.trans hb)
  apply ((hfin.image fun url => (url, (none : Option Params))).union hstart).subset
  rintro r ⟨i, hi⟩
  cases i with
  | zero => exact .inr hi
  | succ i =>
    rw [Function.iterate_succ_apply', Orbit.advance, Option.bind_eq_some_iff] at hi
    obtain ⟨r', -, hr'⟩ := hi
    unfold follow at hr'
    split at hr'
    · rename_i next hnext
      unfold admitted at hr'
      split_ifs at hr'
      split at hr'
      · exact .inl ⟨next, ⟨_, _, hnext⟩, Option.some.inj hr'⟩
      · exact nomatch hr'
    · exact nomatch hr'

theorem capsulesFor_eq (visit : Value → Prog Unit) (fuel : ℕ) {url : String}
    (hu : urljoin w base "capsules/" = .ok url) (hb : urlsplit w base = .ok baseParts) :
    (capsulesFor w visit base fuel).run [] =
      (capsulesLoop w visit base baseParts fuel url (some firstParams)).run [] := by
  unfold capsulesFor
  rw [hu, hb]
  rfl

/-- On a server of finitely many URLs the generator ends exactly if it makes no request twice: it
keeps no record of its requests. Where it ends, the samples end. -/
theorem capsules_ends_iff (server : String → Option Params → Answer)
    (float : String → Option String) (checkNetloc : Url.Text → Bool) (base : String)
    (hfin : (linked (siteWorld server float checkNetloc) base server).Finite) :
    let w := siteWorld server float checkNetloc
    ((∃ fuel, ((capsules w base fuel).run []).1 ≠ .running) ↔
      ∀ fuel, (requests ((capsules w base fuel).run []).2).Nodup) ∧
    ∀ endpoint, baseUrl endpoint = base →
      (∃ fuel, ((capsules w base fuel).run []).1 ≠ .running) →
        ∃ fuel, ((getSamples w (some endpoint) fuel).run []).1 ≠ .running := by
  intro w
  constructor
  · rcases hu : urljoin w base "capsules/" with x | url
    · have hrun : ∀ fuel, (capsules w base fuel).run [] = (.raised x, []) := by
        intro fuel
        rw [capsules, capsulesFor, hu]
        rfl
      simp only [hrun]
      simp [requests]
    rcases hb : urlsplit w base with x | baseParts
    · have hrun : ∀ fuel, (capsules w base fuel).run [] = (.raised x, []) := by
        intro fuel
        rw [capsules, capsulesFor, hu, hb]
        rfl
      simp only [hrun]
      simp [requests]
    simp only [capsules, capsulesFor_eq _ _ hu hb]
    have hloop := fun fuel => requests_capsulesLoop server float checkNetloc base baseParts fuel url
      (some firstParams) []
    have hiff := Orbit.ends_iff_nodup
      (finite_reached baseParts hfin (admitted w baseParts url (some firstParams)))
    constructor
    · rintro ⟨fuel, hfuel⟩ n
      rw [(hloop n).1]
      exact hiff.1 ⟨fuel + 1, (hloop fuel).2.2 hfuel⟩ n
    · intro hnodup
      obtain ⟨n, hn⟩ := hiff.2 fun n => by
        have := hnodup n
        rwa [(hloop n).1] at this
      exact ⟨n, (hloop n).2.1 hn⟩
  · rintro endpoint rfl ⟨fuel, hfuel⟩
    refine ⟨fuel, fun hrun => hfuel ?_⟩
    unfold getSamples at hrun
    by_cases he : endpoint = ""
    · rw [he] at hrun
      exact nomatch hrun
    rw [show (some endpoint).filter (· ≠ "") = some endpoint by simp [he]] at hrun
    rcases hu : urljoin w (baseUrl endpoint) "capsules/" with x | url
    · simp only [capsulesFor, hu] at hrun
      exact nomatch hrun
    rcases hb : urlsplit w (baseUrl endpoint) with x | baseParts
    · simp only [capsulesFor, hu, hb] at hrun
      exact nomatch hrun
    simp only [capsulesFor_eq _ _ hu hb] at hrun
    rw [capsules, capsulesFor_eq _ _ hu hb]
    exact running_of_visits ends_sampleCapsule fuel url _ [] [] hrun

/-- A server whose one page links to itself. -/
def selfLinked : String → Option Params → Answer := fun _ _ =>
  .ok ⟨200, true, .ok (.record [("capsules", .list [.record [("uuid", .str "c1")]]),
    ("next", .str "http://zun/v1/capsules/")])⟩

abbrev selfLinkedWorld : World := siteWorld selfLinked some fun _ => true

theorem nextOf_selfLinked (url : String) (params : Option Params) :
    nextOf selfLinkedWorld "http://zun/v1/" (selfLinked url params) =
      .ok "http://zun/v1/capsules/" := by
  change nextOf selfLinkedWorld "http://zun/v1/" (selfLinked "" none) = _
  decide +kernel

theorem finite_selfLinked : (linked selfLinkedWorld "http://zun/v1/" selfLinked).Finite := by
  apply Set.Subsingleton.finite
  rintro a ⟨_, _, ha⟩ b ⟨_, _, hb⟩
  rw [nextOf_selfLinked] at ha hb
  exact Except.ok.inj (ha.symm.trans hb)

theorem running_selfLinked (fuel : ℕ) :
    ((capsules selfLinkedWorld "http://zun/v1/" fuel).run []).1 = .running := by
  obtain ⟨b, hb, hh⟩ : ∃ b, urlsplit selfLinkedWorld "http://zun/v1/" = .ok b ∧
      checkHost selfLinkedWorld b "http://zun/v1/capsules/" = .ok () :=
    ⟨⟨"http".toList, "zun".toList, "/v1/".toList, [], []⟩, by decide +kernel, by decide +kernel⟩
  have hu : urljoin selfLinkedWorld "http://zun/v1/" "capsules/" =
    .ok "http://zun/v1/capsules/" := by decide +kernel
  rw [capsules, capsulesFor_eq _ _ hu hb]
  generalize some firstParams = params
  generalize ([] : List Event) = t
  induction fuel generalizing params t with
  | zero => rfl
  | succ fuel ih =>
    rw [run_capsulesLoop (by decide) hh]
    have hanswer : ∀ t url params, selfLinkedWorld.answer t url params = selfLinked url params :=
      fun _ _ _ => rfl
    simp only [hanswer, nextOf_selfLinked]
    exact ih none _

/-- The claim of an end fails: the page that links to itself is requested for ever. -/
theorem capsules_selfLinked_running :
    (linked selfLinkedWorld "http://zun/v1/" selfLinked).Finite ∧
      ∀ fuel, ((capsules selfLinkedWorld "http://zun/v1/" fuel).run []).1 = .running :=
  ⟨finite_selfLinked, running_selfLinked⟩

theorem capsules_ends_iff_selfLinked :
    ¬∀ fuel, (requests ((capsules selfLinkedWorld "http://zun/v1/" fuel).run []).2).Nodup := by
  intro h
  obtain ⟨fuel, hfuel⟩ := (capsules_ends_iff selfLinked some (fun _ => true) "http://zun/v1/"
    finite_selfLinked).1.2 h
  exact hfuel (running_selfLinked fuel)

end Yggdrasil.Telemetry
