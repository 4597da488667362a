import Mathlib.Data.List.Induction
import Yggdrasil.Library.Dict

/-! The gRPC channel that is patched into the CRI driver: it sends the calls of the v1alpha2
stubs to v1, and goes back to v1alpha2 for a service once a v1 call to it is answered
UNIMPLEMENTED. The runtime is a function from the calls that reached it to its next answer. -/

namespace Yggdrasil.Cri

/-- `grpc.StatusCode`. -/
inductive StatusCode where
  | ok | cancelled | unknown | invalidArgument | deadlineExceeded | notFound | alreadyExists
  | permissionDenied | resourceExhausted | failedPrecondition | aborted | outOfRange
  | unimplemented | internal | unavailable | dataLoss | unauthenticated
  deriving DecidableEq

/-- What a call raises: `grpc.RpcError` with its code, or another exception. -/
inductive Failure where
  | rpc (code : StatusCode)
  | other (message : String)
  deriving DecidableEq

inductive Version where
  | v1 | v1alpha2
  deriving DecidableEq

variable {Message R : Type}

/-- The responses of a stream, and what it raises after them. -/
structure Responses (Message : Type) where
  items : List Message
  failure : Option Failure

/-- What `next` raises on the stream, apart from `StopIteration`. -/
def Responses.raised (r : Responses Message) : Option Failure :=
  if r.items.isEmpty then r.failure else none

def raised : Except Failure Message → Option Failure
  | .ok _ => none
  | .error x => some x

/-- A call that reached the runtime, and what it raised in place of a first response. -/
structure Attempt (Message : Type) where
  path : String
  request : Message
  raised : Option Failure
  deriving DecidableEq

/-- The runtime behind the channel. -/
structure Runtime (Message : Type) where
  unary : List (Attempt Message) → String → Message → Except Failure Message
  stream : List (Attempt Message) → String → Message → Responses Message

/-- The state of the channel, with the calls that it has sent. -/
structure Channel (Message : Type) where
  serviceVersions : List (String × Version)
  log : List (Attempt Message)

/-! ### The channel -/

def alpha2Prefix : String := "/runtime.v1alpha2."

def v1Prefix : String := "/runtime.v1."

/-- `method.split("/", 2)[1]`. -/
def serviceOf (method : String) : String :=
  String.ofList (((method.toList.dropWhile (· != '/')).drop 1).takeWhile (· != '/'))

/-- The v1 path, the v1alpha2 path and the service of a method, unless it is none of v1alpha2. -/
def paths (method : String) : String × String × Option String :=
  if alpha2Prefix.toList.isPrefixOf method.toList then
    (v1Prefix ++ String.ofList (method.toList.drop alpha2Prefix.toList.length), method,
      some (serviceOf method))
  else (method, method, none)

/-- A call on the wrapped channel. -/
def Channel.send (raised : R → Option Failure)
    (call : List (Attempt Message) → String → Message → R) (path : String) (request : Message)
    (c : Channel Message) : R × Channel Message :=
  let r := call c.log path request
  (r, { c with log := c.log ++ [⟨path, request, raised r⟩] })

def Channel.setVersion (c : Channel Message) (service : String) (version : Version) :
    Channel Message :=
  { c with serviceVersions := Dict.set c.serviceVersions service version }

/-- The call of a method. The version is looked up when the call is made, so it does not matter
when the callable was created. -/
def invoke (raised : R → Option Failure) (call : List (Attempt Message) → String → Message → R)
    (method : String) (request : Message) (c : Channel Message) : R × Channel Message :=
  match paths method with
  | (stable, _, none) => c.send raised call stable request
  | (stable, alpha2, some service) =>
    if Dict.get? c.serviceVersions service = some .v1alpha2 then c.send raised call alpha2 request
    else
      let (r, c) := c.send raised call stable request
      match raised r with
      | none => (r, c.setVersion service .v1)
      | some (.rpc .unimplemented) => (c.setVersion service .v1alpha2).send raised call alpha2 request
      | some _ => (r, c)

def unaryUnary (runtime : Runtime Message) (method : String) (request : Message)
    (c : Channel Message) : Except Failure Message × Channel Message :=
  invoke raised runtime.unary method request c

/-- The first response is taken at once; the stream that is returned has it and the others. -/
def unaryStream (runtime : Runtime Message) (method : String) (request : Message)
    (c : Channel Message) : Responses Message × Channel Message :=
  invoke Responses.raised runtime.stream method request c

/-- A method of the driver's stubs, which name those of v1alpha2. -/
structure Method where
  tail : String
  deriving DecidableEq

def Method.path (m : Method) : String := alpha2Prefix ++ m.tail

structure Call (Message : Type) where
  streaming : Bool
  method : Method
  request : Message

def step (runtime : Runtime Message) (c : Channel Message) (call : Call Message) :
    Channel Message :=
  if call.streaming then (unaryStream runtime call.method.path call.request c).2
  else (unaryUnary runtime call.method.path call.request c).2

/-- The channel after a sequence of calls. -/
def run (runtime : Runtime Message) (calls : List (Call Message)) : Channel Message :=
  calls.foldl (step runtime) ⟨[], []⟩

/-! ### Services -/

/-- The service of a method, without its version. -/
def Method.service (m : Method) : String := String.ofList (m.tail.toList.takeWhile (· != '/'))

/-- The call is one of the service, in the version that the prefix names. -/
def Attempt.To (pre service : String) (e : Attempt Message) : Prop :=
  ∃ m : Method, m.service = service ∧ e.path = pre ++ m.tail

def Attempt.Refused (e : Attempt Message) : Prop := e.raised = some (.rpc .unimplemented)

/-- Some v1 call to the service is, at some time, not answered UNIMPLEMENTED. -/
def Serves (runtime : Runtime Message) (service : String) : Prop :=
  ∃ (log : List (Attempt Message)) (m : Method) (request : Message), m.service = service ∧
    (raised (runtime.unary log (v1Prefix ++ m.tail) request) ≠ some (.rpc .unimplemented) ∨
      (runtime.stream log (v1Prefix ++ m.tail) request).raised ≠ some (.rpc .unimplemented))

/-- After a v1 call to a service has succeeded no call to it is routed to v1alpha2, and calls are
routed to v1alpha2 only for services that the runtime does not serve in v1. -/
structure Stable (runtime : Runtime Message) (log : List (Attempt Message)) : Prop where
  kept : ∀ service before e after, log = before ++ e :: after → e.To v1Prefix service →
    e.raised = none → ∀ e' ∈ after, ¬e'.To alpha2Prefix service
  unserved : ∀ service, ∀ e ∈ log, e.To alpha2Prefix service → ¬Serves runtime service

theorem append_injective {a b c : String} (h : a ++ b = a ++ c) : b = c := by
  have hl := congrArg String.toList h
  rw [String.toList_append, String.toList_append] at hl
  exact String.toList_injective (List.append_cancel_left hl)

theorem v1_ne_alpha2 (a b : String) : v1Prefix ++ a ≠ alpha2Prefix ++ b := by
  intro h
  have hl := congrArg String.toList h
  rw [String.toList_append, String.toList_append] at hl
  have h11 := congrArg (fun l => l[11]?) hl
  simp [v1Prefix, alpha2Prefix] at h11

theorem serviceOf_path (m : Method) : serviceOf m.path = "runtime.v1alpha2." ++ m.service := by
  apply String.toList_injective
  simp [serviceOf, Method.path, Method.service, alpha2Prefix]

theorem paths_path (m : Method) :
    paths m.path = (v1Prefix ++ m.tail, alpha2Prefix ++ m.tail,
      some ("runtime.v1alpha2." ++ m.service)) := by
  unfold paths
  rw [serviceOf_path, if_pos]
  · simp [Method.path]
  · simp [Method.path]

/-- A call belongs to one service. -/
theorem service_of_to {pre service : String} {m : Method} {e : Attempt Message}
    (h : e.To pre service) (he : e.path = pre ++ m.tail) : service = m.service := by
  obtain ⟨m', rfl, hpath⟩ := h
  have htail : m'.tail = m.tail := append_injective (hpath.symm.trans he)
  rw [Method.service, htail]
  rfl

theorem not_to_alpha2 {service tail : String} {e : Attempt Message} (he : e.path = v1Prefix ++ tail) :
    ¬e.To alpha2Prefix service := by
  rintro ⟨m, -, hpath⟩
  exact v1_ne_alpha2 _ _ (he.symm.trans hpath)

theorem not_to_v1 {service tail : String} {e : Attempt Message}
    (he : e.path = alpha2Prefix ++ tail) : ¬e.To v1Prefix service := by
  rintro ⟨m, -, hpath⟩
  exact v1_ne_alpha2 _ _ (hpath.symm.trans he)

/-! ### Runs -/

/-- The key of a service in the state of the channel. -/
def key (service : String) : String := "runtime.v1alpha2." ++ service

/-- What a call does: a v1alpha2 call once that is remembered, otherwise a v1 call, and a
v1alpha2 call after it if it is refused. -/
inductive Sends (Serves : String → Prop) (m : Method) (c : Channel Message) :
    Channel Message → Prop
  | remembered (e : Attempt Message) :
      Dict.get? c.serviceVersions (key m.service) = some .v1alpha2 →
      e.path = alpha2Prefix ++ m.tail → Sends Serves m c ⟨c.serviceVersions, c.log ++ [e]⟩
  | accepted (e : Attempt Message) : e.path = v1Prefix ++ m.tail → e.raised = none →
      Serves m.service →
      Sends Serves m c ⟨Dict.set c.serviceVersions (key m.service) .v1, c.log ++ [e]⟩
  | failed (e : Attempt Message) : e.path = v1Prefix ++ m.tail → ¬e.Refused → Serves m.service →
      Sends Serves m c ⟨c.serviceVersions, c.log ++ [e]⟩
  | refused (e e' : Attempt Message) : e.path = v1Prefix ++ m.tail → e.Refused →
      e'.path = alpha2Prefix ++ m.tail →
      Sends Serves m c ⟨Dict.set c.serviceVersions (key m.service) .v1alpha2, c.log ++ [e] ++ [e']⟩

theorem sends_invoke {raised : R → Option Failure}
    {call : List (Attempt Message) → String → Message → R} {S : String → Prop} (m : Method)
    (request : Message) (c : Channel Message)
    (hS : ∀ log, raised (call log (v1Prefix ++ m.tail) request) ≠ some (.rpc .unimplemented) →
      S m.service) : Sends S m c (invoke raised call m.path request c).2 := by
  unfold invoke
  rw [paths_path]
  dsimp only
  split_ifs with h
  · exact .remembered _ h rfl
  · dsimp only [Channel.send]
    have hserves := hS c.log
    split
    · rename_i hr
      exact .accepted _ rfl hr (hserves (by simp [hr]))
    · rename_i hr
      exact .refused _ _ rfl hr rfl
    · rename_i x hx hr
      have hne : raised (call c.log (v1Prefix ++ m.tail) request) ≠ some (.rpc .unimplemented) := by
        rw [hr]
        exact fun he => hx (Option.some.inj he)
      exact .failed _ rfl hne (hserves hne)

variable {runtime : Runtime Message}

theorem sends_step (c : Channel Message) (call : Call Message) :
    Sends (Serves runtime) call.method c (step runtime c call) := by
  unfold step
  split_ifs
  · exact sends_invoke _ _ _ fun log h => ⟨log, call.method, call.request, rfl, .inr h⟩
  · exact sends_invoke _ _ _ fun log h => ⟨log, call.method, call.request, rfl, .inl h⟩

/-- The calls to v1alpha2, and the memory of them, go back to refused v1 calls. -/
structure Routed (runtime : Runtime Message) (c : Channel Message) : Prop where
  remembered : ∀ service, Dict.get? c.serviceVersions (key service) = some .v1alpha2 →
    ∃ e ∈ c.log, e.To v1Prefix service ∧ e.Refused
  routed : ∀ service, (∃ e ∈ c.log, e.To alpha2Prefix service) ↔
    ∃ e ∈ c.log, e.To v1Prefix service ∧ e.Refused
  answered : ∀ service, ∀ e ∈ c.log, e.To v1Prefix service → ¬e.Refused → Serves runtime service

theorem exists_mem_snoc {α : Type} {P : α → Prop} {l : List α} {a : α} :
    (∃ b ∈ l ++ [a], P b) ↔ (∃ b ∈ l, P b) ∨ P a := by
  simp [or_and_right, exists_or]

theorem key_injective {a b : String} (h : key a = key b) : a = b := append_injective h

theorem to_of_path {pre : String} {m : Method} {e : Attempt Message} (he : e.path = pre ++ m.tail) :
    e.To pre m.service := ⟨m, rfl, he⟩

section Step

variable {m : Method} {c : Channel Message} {e : Attempt Message}

/-- A v1 call that is not refused. -/
theorem Routed.answer (h : Routed runtime c) (he : e.path = v1Prefix ++ m.tail) (hr : ¬e.Refused)
    (hserves : Serves runtime m.service) : Routed runtime ⟨c.serviceVersions, c.log ++ [e]⟩ where
  remembered service hget := exists_mem_snoc.2 (.inl (h.remembered service hget))
  routed service := by
    rw [exists_mem_snoc, exists_mem_snoc, h.routed service]
    constructor
    · exact fun hor => .inl (hor.resolve_right (not_to_alpha2 he))
    · exact fun hor => .inl (hor.resolve_right fun hv => hr hv.2)
  answered service e' hm hto hr' := by
    rcases List.mem_append.1 hm with hm | hm
    · exact h.answered service e' hm hto hr'
    · rw [List.mem_singleton.1 hm] at hto
      rw [service_of_to hto he]
      exact hserves

/-- The v1 version is remembered. -/
theorem Routed.forget (h : Routed runtime c) : Routed runtime (c.setVersion (key m.service) .v1) where
  remembered service hget := by
    apply h.remembered service
    by_cases hk : key service = key m.service
    · rw [hk, Channel.setVersion, Dict.get?_set_self] at hget
      cases hget
    · rwa [Channel.setVersion, Dict.get?_set_of_ne hk] at hget
  routed := h.routed
  answered := h.answered

/-- A v1alpha2 call for a service that has refused a v1 call. -/
theorem Routed.fallBack (h : Routed runtime c) (he : e.path = alpha2Prefix ++ m.tail)
    (hr : ∃ e ∈ c.log, e.To v1Prefix m.service ∧ e.Refused) :
    Routed runtime ⟨c.serviceVersions, c.log ++ [e]⟩ where
  remembered service hget := exists_mem_snoc.2 (.inl (h.remembered service hget))
  routed service := by
    rw [exists_mem_snoc, exists_mem_snoc, h.routed service]
    constructor
    · rintro (hor | hto)
      · exact .inl hor
      · rw [service_of_to hto he]
        exact .inl hr
    · exact fun hor => .inl (hor.resolve_right fun hv => not_to_v1 he hv.1)
  answered service e' hm hto hr' := by
    rcases List.mem_append.1 hm with hm | hm
    · exact h.answered service e' hm hto hr'
    · rw [List.mem_singleton.1 hm] at hto
      exact absurd hto (not_to_v1 he)

/-- A refused v1 call with the v1alpha2 call that follows it. -/
theorem Routed.refuse {e' : Attempt Message} (h : Routed runtime c)
    (he : e.path = v1Prefix ++ m.tail) (hr : e.Refused) (he' : e'.path = alpha2Prefix ++ m.tail) :
    Routed runtime ⟨Dict.set c.serviceVersions (key m.service) .v1alpha2, c.log ++ [e] ++ [e']⟩ where
  remembered service hget := by
    apply exists_mem_snoc.2 (.inl (exists_mem_snoc.2 _))
    by_cases hk : key service = key m.service
    · rw [key_injective hk]
      exact .inr ⟨to_of_path he, hr⟩
    · rw [Dict.get?_set_of_ne hk] at hget
      exact .inl (h.remembered service hget)
  routed service := by
    rw [exists_mem_snoc, exists_mem_snoc, exists_mem_snoc, exists_mem_snoc, h.routed service]
    constructor
    · rintro ((hor | hto) | hto)
      · exact .inl (.inl hor)
      · exact absurd hto (not_to_alpha2 he)
      · rw [service_of_to hto he']
        exact .inl (.inr ⟨to_of_path he, hr⟩)
    · rintro ((hor | ⟨hto, -⟩) | ⟨hto, -⟩)
      · exact .inl (.inl hor)
      · rw [service_of_to hto he]
        exact .inr (to_of_path he')
      · exact absurd hto (not_to_v1 he')
  answered service e'' hm hto hr' := by
    rcases List.mem_append.1 hm with hm | hm
    · rcases List.mem_append.1 hm with hm | hm
      · exact h.answered service e'' hm hto hr'
      · rw [List.mem_singleton.1 hm] at hr'
        exact absurd hr hr'
    · rw [List.mem_singleton.1 hm] at hto
      exact absurd hto (not_to_v1 he')

theorem routed_step {c' : Channel Message} (h : Routed runtime c)
    (hs : Sends (Serves runtime) m c c') : Routed runtime c' := by
  cases hs with
  | remembered e hmem he => exact h.fallBack he (h.remembered _ hmem)
  | accepted e he hr hserves => exact (h.answer he (by rw [Attempt.Refused, hr]; nofun) hserves).forget
  | failed e he hr hserves => exact h.answer he hr hserves
  | refused e e' he hr he' => exact h.refuse he hr he'

end Step

theorem routed_run (calls : List (Call Message)) : Routed runtime (run runtime calls) := by
  induction calls using List.reverseRecOn with
  | nil => exact ⟨fun _ h => by simp [run] at h, fun _ => by simp [run], fun _ _ hm => by simp [run] at hm⟩
  | append_singleton calls call ih =>
    rw [run, List.foldl_append]
    exact routed_step ih (sends_step _ call)

/-- A run is stable exactly if the v1 calls that are refused in it are to services that the runtime
does not serve in v1. -/
theorem stable_iff (runtime : Runtime Message) (calls : List (Call Message)) :
    Stable runtime (run runtime calls).log ↔
      ∀ e ∈ (run runtime calls).log, ∀ service, e.To v1Prefix service → e.Refused →
        ¬Serves runtime service := by
  have h : Routed runtime (run runtime calls) := routed_run calls
  constructor
  · intro hstable e hm service hto hr
    obtain ⟨e', hm', hto'⟩ := (h.routed service).2 ⟨e, hm, hto, hr⟩
    exact hstable.unserved service e' hm' hto'
  · intro hrefused
    have hunserved : ∀ service, ∀ e ∈ (run runtime calls).log, e.To alpha2Prefix service →
        ¬Serves runtime service := by
      intro service e hm hto
      obtain ⟨e', hm', hto', hr⟩ := (h.routed service).1 ⟨e, hm, hto⟩
      exact hrefused e' hm' service hto' hr
    refine ⟨fun service before e after hlog hto hr e' he' hto' => ?_, hunserved⟩
    have hm : e ∈ (run runtime calls).log := by simp [hlog]
    have hm' : e' ∈ (run runtime calls).log := by simp [hlog, he']
    apply hunserved service e' hm' hto'
    exact h.answered service e hm hto (by rw [Attempt.Refused, hr]; nofun)

/-- A runtime that serves v1 but for one method of it. -/
def withoutCheckpoint : Runtime String where
  unary _ path request :=
    if path = v1Prefix ++ "RuntimeService/CheckpointContainer" then .error (.rpc .unimplemented)
    else .ok request
  stream _ _ _ := ⟨[], none⟩

theorem checkpoint_not_stable :
    ¬∀ (runtime : Runtime String) (calls : List (Call String)),
      Stable runtime (run runtime calls).log := by
  intro h
  have hstable := h withoutCheckpoint
    [⟨false, ⟨"RuntimeService/Version"⟩, ""⟩, ⟨false, ⟨"RuntimeService/CheckpointContainer"⟩, ""⟩]
  apply hstable.kept "RuntimeService" [] _ _ rfl ⟨⟨"RuntimeService/Version"⟩, rfl, rfl⟩ rfl _
    (List.mem_cons_of_mem _ List.mem_cons_self)
  exact ⟨⟨"RuntimeService/CheckpointContainer"⟩, rfl, rfl⟩

end Yggdrasil.Cri
