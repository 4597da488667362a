import Mathlib.Algebra.Order.Field.Rat
import Mathlib.Tactic.Linarith
import Mathlib.Tactic.Positivity
import Yggdrasil.Library.Dict

/-! CPU sampling of capsule containers. The driver of a host answers each call for a container by
the runtime's own rate or, failing that, by the CPU time since the last sample, which a cache
of bounded size keeps; a capsule's load is the mean over its containers, weighted by their CPU
requests. The counters and the requests are exact rationals. -/

namespace Yggdrasil.CpuStats

/-! ### The driver -/

/-- A field of the runtime's answer: one its message does not know, one that is not set, or a
counter. -/
inductive Field where
  | unknown
  | unset
  | counter (n : ℤ)

structure RuntimeStats where
  usageNanoCores : Field
  usageCoreNanoSeconds : Field
  timestamp : ℤ

structure Container where
  uuid : String
  containerId : Option String
  cpu : Option ℚ
  /-- Its status is `RUNNING`. -/
  running : Bool
  host : Option String

/-- A call for a container, with the answer of the runtime to it. -/
structure Call where
  container : Container
  response : Except String RuntimeStats

inductive StatsError where
  | runtime (text : String)
  | zeroDivision

/-- The CPU time and the time of a sample. -/
abbrev Sample := ℤ × ℤ

/-- The last samples by the `uuid` of their container. -/
abbrev Cache := List (String × Sample)

/-- A percentage, or an empty result. -/
abbrev Result := Except StatsError (Option ℚ)

def hasText (s : Option String) : Bool := s.any (· ≠ "")

def divide (a b : ℚ) : Except StatsError ℚ := if b = 0 then .error .zeroDivision else .ok (a / b)

def capacity : ℕ := 10000

/-- A sample is kept; where this makes the cache too large, it alone is kept. -/
def remember (cache : Cache) (uuid : String) (sample : Sample) : Cache :=
  if capacity < (Dict.set cache uuid sample).length then [(uuid, sample)]
  else Dict.set cache uuid sample

def nanoUsage : Field → Except StatsError (Option ℚ)
  | .counter n => if 0 < n then (divide n 1000000000).map some else .ok none
  | _ => .ok none

/-- The sample in the runtime's answer. -/
def cumulative (stats : RuntimeStats) : Option Sample :=
  match stats.usageCoreNanoSeconds with
  | .counter n => if 0 < stats.timestamp then some (n, stats.timestamp) else none
  | _ => none

/-- The rate since the previous sample; a first one counts as idle. -/
def rate : Option Sample → Sample → Except StatsError (Option ℚ)
  | none, _ => .ok (some 0)
  | some previous, sample =>
    if 0 < sample.2 - previous.2 ∧ 0 ≤ sample.1 - previous.1 then
      (divide (sample.1 - previous.1 : ℤ) (sample.2 - previous.2 : ℤ)).map some
    else .ok none

def usageCores (cache : Cache) (uuid : String) (stats : RuntimeStats) :
    Except StatsError (Option ℚ) × Cache :=
  match nanoUsage stats.usageNanoCores with
  | .error e => (.error e, cache)
  | .ok (some usage) => (.ok (some usage), cache)
  | .ok none =>
    match cumulative stats with
    | none => (.ok none, cache)
    | some sample => (rate (Dict.get? cache uuid) sample, remember cache uuid sample)

def cpuRequest (cpu : Option ℚ) : ℚ := if cpu.getD 0 ≤ 0 then 1 else cpu.getD 0

/-- The percentage of the request, clipped. -/
def percentage (cpu : Option ℚ) : Option ℚ → Result
  | none => .ok none
  | some usage => (divide (usage * 100) (cpuRequest cpu)).map fun p => some (max 0 (min 100 p))

/-- `stats` of the driver: its result, and the cache after it. -/
def stats (cache : Cache) (call : Call) : Result × Cache :=
  if !hasText call.container.containerId then (.ok none, cache)
  else match call.response with
  | .error text => (.error (.runtime text), cache)
  | .ok answer =>
    let (usage, cache) := usageCores cache call.container.uuid answer
    (usage.bind (percentage call.container.cpu), cache)

/-! ### The capsule -/

def isPolled (capsuleHost : Option String) (container : Container) : Bool :=
  container.running && (hasText container.host || hasText capsuleHost) &&
    hasText container.containerId

/-- The sums of the loads and of the weights; an exception or an empty result adds nothing. -/
def addShare (capsuleHost : Option String) (sums : ℚ × ℚ) (poll : Container × Result) : ℚ × ℚ :=
  if !isPolled capsuleHost poll.1 then sums
  else match poll.2 with
  | .ok (some percent) =>
    (sums.1 + percent * cpuRequest poll.1.cpu, sums.2 + cpuRequest poll.1.cpu)
  | _ => sums

/-- `stats` of the capsule, over its containers with the answers to the polls of them. -/
def capsuleStats (capsuleHost : Option String) (polls : List (Container × Result)) : Result :=
  let sums := polls.foldl (addShare capsuleHost) (0, 0)
  if sums.2 ≤ 0 then .ok none else (divide sums.1 sums.2).map some

/-! ### Histories -/

/-- The cache of a driver after the calls. -/
def cacheAfter (calls : List Call) : Cache := calls.foldl (fun cache call => (stats cache call).2) []

/-- The result of a call after the calls. -/
def resultAfter (calls : List Call) (call : Call) : Result := (stats (cacheAfter calls) call).1

/-- The sample by cumulative CPU time that a call takes. -/
def sampleOf (call : Call) : Option Sample :=
  if !hasText call.container.containerId then none
  else match call.response with
  | .error _ => none
  | .ok answer =>
    match nanoUsage answer.usageNanoCores with
    | .ok none => cumulative answer
    | _ => none

def sampledFor (uuid : String) (call : Call) : Option Sample :=
  if call.container.uuid = uuid then sampleOf call else none

/-- The last sample of a container. -/
def latest (calls : List Call) (uuid : String) : Option Sample :=
  (calls.filterMap (sampledFor uuid)).getLast?

/-- The result against a previous sample. -/
def measured (call : Call) (previous : Option Sample) (sample : Sample) : Result :=
  (rate previous sample).bind (percentage call.container.cpu)

/-- The call takes the sample of a container that a full cache does not have. -/
def Clears (cache : Cache) (call : Call) : Prop :=
  (sampleOf call).isSome = true ∧ Dict.get? cache call.container.uuid = none ∧
    capacity ≤ cache.length

/-- Since the last sample of the container another one has cleared the cache. -/
def ClearedSince (calls : List Call) (uuid : String) : Prop :=
  ∃ before call after, calls = before ++ call :: after ∧ Clears (cacheAfter before) call ∧
    call.container.uuid ≠ uuid ∧ latest after uuid = none

/-! ### Bounds of one call -/

/-- No division by zero, and nothing but a percentage. -/
def Bounded (r : Result) : Prop := r ≠ .error .zeroDivision ∧ ∀ q, r = .ok (some q) → 0 ≤ q ∧ q ≤ 100

section Bounds

variable {cache : Cache} {call : Call}

theorem cpuRequest_pos (cpu : Option ℚ) : 0 < cpuRequest cpu := by
  unfold cpuRequest
  split_ifs with h
  · exact one_pos
  · exact not_le.1 h

theorem divide_of_ne_zero {a b : ℚ} (h : b ≠ 0) : divide a b = .ok (a / b) := if_neg h

theorem nanoUsage_ok (f : Field) : ∃ o, nanoUsage f = .ok o := by
  cases f with
  | counter n =>
    simp only [nanoUsage]
    split_ifs
    · rw [divide_of_ne_zero (by norm_num)]
      exact ⟨_, rfl⟩
    · exact ⟨_, rfl⟩
  | _ => exact ⟨_, rfl⟩

theorem rate_ok (previous : Option Sample) (sample : Sample) : ∃ o, rate previous sample = .ok o := by
  cases previous with
  | none => exact ⟨_, rfl⟩
  | some previous =>
    simp only [rate]
    split_ifs with h
    · have hne : ((sample.2 - previous.2 : ℤ) : ℚ) ≠ 0 := by
        exact_mod_cast h.1.ne'
      rw [divide_of_ne_zero hne]
      exact ⟨_, rfl⟩
    · exact ⟨_, rfl⟩

theorem bounded_empty : Bounded (.ok none) := by
  refine ⟨fun h => ?_, fun q h => ?_⟩ <;> cases h

theorem bounded_runtime (text : String) : Bounded (.error (.runtime text)) := by
  refine ⟨fun h => ?_, fun q h => ?_⟩ <;> cases h

theorem bounded_some {q : ℚ} (h : 0 ≤ q ∧ q ≤ 100) : Bounded (.ok (some q)) := by
  refine ⟨fun hr => ?_, fun q' hr => ?_⟩ <;> cases hr
  exact h

theorem bounded_percentage (cpu usage : Option ℚ) : Bounded (percentage cpu usage) := by
  cases usage with
  | none => exact bounded_empty
  | some usage =>
    simp only [percentage, divide_of_ne_zero (cpuRequest_pos cpu).ne']
    exact bounded_some ⟨le_max_left _ _, max_le (by norm_num) (min_le_left _ _)⟩

theorem usageCores_ok (cache : Cache) (uuid : String) (answer : RuntimeStats) :
    ∃ o, (usageCores cache uuid answer).1 = .ok o := by
  unfold usageCores
  obtain ⟨o, ho⟩ := nanoUsage_ok answer.usageNanoCores
  rw [ho]
  cases o with
  | some usage => exact ⟨_, rfl⟩
  | none =>
    cases cumulative answer with
    | none => exact ⟨_, rfl⟩
    | some sample => exact rate_ok _ _

/-- Whatever is in the cache, the result of a call is bounded. -/
theorem bounded_stats (cache : Cache) (call : Call) : Bounded (stats cache call).1 := by
  unfold stats
  split_ifs
  · exact bounded_empty
  · cases call.response with
    | error text => exact bounded_runtime text
    | ok answer =>
      obtain ⟨o, ho⟩ := usageCores_ok cache call.container.uuid answer
      simp only [ho]
      exact bounded_percentage _ _

/-- A poll keeps the sum of the loads within the weights. -/
theorem addShare_le {capsuleHost : Option String} {sums : ℚ × ℚ} {poll : Container × Result}
    (hpoll : Bounded poll.2) (h : 0 ≤ sums.1 ∧ sums.1 ≤ 100 * sums.2) :
    0 ≤ (addShare capsuleHost sums poll).1 ∧
      (addShare capsuleHost sums poll).1 ≤ 100 * (addShare capsuleHost sums poll).2 := by
  unfold addShare
  split_ifs
  · exact h
  · split
    · next percent hpercent =>
      obtain ⟨hnonneg, hle⟩ := hpoll.2 percent hpercent
      have hrequest := cpuRequest_pos poll.1.cpu
      refine ⟨add_nonneg h.1 (mul_nonneg hnonneg hrequest.le), ?_⟩
      rw [mul_add]
      exact add_le_add h.2 (mul_le_mul_of_nonneg_right hle hrequest.le)
    · exact h

theorem bounded_capsuleStats (capsuleHost : Option String) {polls : List (Container × Result)}
    (h : ∀ poll ∈ polls, Bounded poll.2) : Bounded (capsuleStats capsuleHost polls) := by
  have hsums : ∀ (polls : List (Container × Result)) (sums : ℚ × ℚ),
      (∀ poll ∈ polls, Bounded poll.2) → 0 ≤ sums.1 ∧ sums.1 ≤ 100 * sums.2 →
      0 ≤ (polls.foldl (addShare capsuleHost) sums).1 ∧
        (polls.foldl (addShare capsuleHost) sums).1 ≤
          100 * (polls.foldl (addShare capsuleHost) sums).2 := by
    intro polls
    induction polls with
    | nil => exact fun sums _ hsums => hsums
    | cons poll polls ih =>
      intro sums hpolls hsums
      exact ih _ (fun p hp => hpolls p (List.mem_cons_of_mem _ hp))
        (addShare_le (hpolls poll List.mem_cons_self) hsums)
  obtain ⟨hnonneg, hle⟩ := hsums polls (0, 0) h (by norm_num)
  unfold capsuleStats
  simp only
  split_ifs with htotal
  · exact bounded_empty
  · have hpos := not_le.1 htotal
    rw [divide_of_ne_zero hpos.ne']
    exact bounded_some ⟨div_nonneg hnonneg hpos.le, (div_le_iff₀ hpos).2 hle⟩

end Bounds

/-! ### The cache over a history -/

section History

variable {cache : Cache} {call : Call} {calls : List Call} {uuid : String} {sample : Sample}

theorem stats_of_sample (h : sampleOf call = some sample) (cache : Cache) :
    stats cache call = (measured call (Dict.get? cache call.container.uuid) sample,
      remember cache call.container.uuid sample) := by
  unfold sampleOf at h
  split_ifs at h with hid
  cases hresponse : call.response with
  | error text =>
    rw [hresponse] at h
    cases h
  | ok answer =>
    obtain ⟨usage, husage⟩ := nanoUsage_ok answer.usageNanoCores
    rw [hresponse] at h
    simp only [husage] at h
    cases usage with
    | some usage => cases h
    | none =>
      unfold stats
      rw [if_neg hid, hresponse]
      simp only [usageCores, husage, h]
      rfl

theorem stats_of_no_sample (h : sampleOf call = none) (cache : Cache) :
    (stats cache call).2 = cache := by
  unfold sampleOf at h
  unfold stats
  split_ifs at h ⊢ with hid
  · rfl
  · cases hresponse : call.response with
    | error text => rfl
    | ok answer =>
      obtain ⟨usage, husage⟩ := nanoUsage_ok answer.usageNanoCores
      rw [hresponse] at h
      simp only [husage] at h
      cases usage with
      | some usage => simp only [usageCores, husage]
      | none => simp only [usageCores, husage, h]

theorem length_remember (cache : Cache) (uuid : String) (sample : Sample) :
    (remember cache uuid sample).length ≤ capacity := by
  unfold remember
  split_ifs with h
  · exact Nat.one_le_iff_ne_zero.2 (by decide)
  · exact not_lt.1 h

theorem cacheAfter_snoc (calls : List Call) (call : Call) :
    cacheAfter (calls ++ [call]) = (stats (cacheAfter calls) call).2 := by
  rw [cacheAfter, List.foldl_append]
  rfl

theorem length_cacheAfter (calls : List Call) : (cacheAfter calls).length ≤ capacity := by
  induction calls using List.reverseRecOn with
  | nil => exact Nat.zero_le _
  | append_singleton calls call ih =>
    rw [cacheAfter_snoc]
    cases hsample : sampleOf call with
    | none => rwa [stats_of_no_sample hsample]
    | some sample =>
      rw [stats_of_sample hsample]
      exact length_remember _ _ _

/-- A cache within its bound is cleared exactly by the sample of a container it does not have. -/
theorem get?_remember (hcache : cache.length ≤ capacity) (h : sampleOf call = some sample)
    (uuid : String) :
    (call.container.uuid = uuid →
      Dict.get? (remember cache call.container.uuid sample) uuid = some sample) ∧
    (call.container.uuid ≠ uuid → Clears cache call →
      Dict.get? (remember cache call.container.uuid sample) uuid = none) ∧
    (call.container.uuid ≠ uuid → ¬Clears cache call →
      Dict.get? (remember cache call.container.uuid sample) uuid = Dict.get? cache uuid) := by
  have hclears : capacity < (Dict.set cache call.container.uuid sample).length ↔
      Clears cache call := by
    unfold Clears
    rw [h, Dict.length_set]
    split_ifs with hget
    · simp only [hget, Option.isSome_some, true_and]
      omega
    · simp only [hget, false_and, and_false, iff_false]
      omega
  unfold remember
  split_ifs with hfull
  · refine ⟨fun heq => ?_, fun hne _ => ?_, fun _ hnot => absurd (hclears.1 hfull) hnot⟩
    · simp [Dict.get?, heq]
    · simp [Dict.get?, hne]
  · refine ⟨fun heq => ?_, fun _ hclear => absurd (hclears.2 hclear) hfull, fun hne _ => ?_⟩
    · rw [heq, Dict.get?_set_self]
    · exact Dict.get?_set_of_ne hne.symm _ _

theorem latest_snoc (calls : List Call) (call : Call) (uuid : String) :
    latest (calls ++ [call]) uuid = (sampledFor uuid call).or (latest calls uuid) := by
  unfold latest
  rw [List.filterMap_append, List.getLast?_append]
  cases h : sampledFor uuid call <;> simp [h]

theorem sampledFor_eq_none_of_ne (h : call.container.uuid ≠ uuid) : sampledFor uuid call = none :=
  if_neg h

theorem clearedSince_snoc (calls : List Call) (call : Call) (uuid : String) :
    ClearedSince (calls ++ [call]) uuid ↔ sampledFor uuid call = none ∧
      (ClearedSince calls uuid ∨ Clears (cacheAfter calls) call ∧ call.container.uuid ≠ uuid) := by
  constructor
  · rintro ⟨before, c, after, heq, hclears, hne, hlatest⟩
    rcases List.eq_nil_or_concat after with rfl | ⟨after, last, rfl⟩
    · obtain ⟨rfl, hc⟩ := List.append_inj' heq rfl
      cases hc
      exact ⟨sampledFor_eq_none_of_ne hne, .inr ⟨hclears, hne⟩⟩
    · rw [List.concat_eq_append, ← List.cons_append, ← List.append_assoc] at heq
      obtain ⟨rfl, hlast⟩ := List.append_inj' heq rfl
      cases hlast
      rw [List.concat_eq_append, latest_snoc, Option.or_eq_none_iff] at hlatest
      exact ⟨hlatest.1, .inl ⟨before, c, after, rfl, hclears, hne, hlatest.2⟩⟩
  · rintro ⟨hsampled, ⟨before, c, after, rfl, hclears, hne, hlatest⟩ | ⟨hclears, hne⟩⟩
    · refine ⟨before, c, after ++ [call], by simp, hclears, hne, ?_⟩
      rw [latest_snoc, hsampled, hlatest]
      rfl
    · exact ⟨calls, call, [], rfl, hclears, hne, rfl⟩

/-- The cache has the last sample of each container, unless it has been cleared since. -/
theorem get?_cacheAfter (calls : List Call) (uuid : String) :
    (ClearedSince calls uuid → Dict.get? (cacheAfter calls) uuid = none) ∧
      (¬ClearedSince calls uuid → Dict.get? (cacheAfter calls) uuid = latest calls uuid) := by
  induction calls using List.reverseRecOn with
  | nil =>
    refine ⟨?_, fun _ => rfl⟩
    rintro ⟨before, call, after, h, -⟩
    simp at h
  | append_singleton calls call ih =>
    rw [clearedSince_snoc, latest_snoc, cacheAfter_snoc]
    cases hsample : sampleOf call with
    | none =>
      have hsampled : sampledFor uuid call = none := by
        unfold sampledFor
        split_ifs <;> [exact hsample; rfl]
      have hclears : ¬Clears (cacheAfter calls) call := fun h => by simp [Clears, hsample] at h
      rw [stats_of_no_sample hsample, hsampled]
      simpa [hclears] using ih
    | some sample =>
      rw [stats_of_sample hsample]
      obtain ⟨hself, hcleared, hkept⟩ :=
        get?_remember (length_cacheAfter calls) hsample uuid
      by_cases heq : call.container.uuid = uuid
      · have hsampled : sampledFor uuid call = some sample := by
          rw [sampledFor, if_pos heq, hsample]
        rw [hsampled]
        refine ⟨fun h => ?_, fun _ => hself heq⟩
        cases h.1
      · rw [sampledFor_eq_none_of_ne heq]
        by_cases hclears : Clears (cacheAfter calls) call
        · exact ⟨fun _ => hcleared heq hclears, fun h => absurd ⟨rfl, .inr ⟨hclears, heq⟩⟩ h⟩
        · simp only [hkept heq hclears]
          simpa [hclears] using ih

end History

/-- Over every history of calls of a driver: the cache keeps its bound; no call divides by zero
or gives anything but a percentage or an empty result, nor does the mean of a capsule over
results of drivers; and a container with a sample is measured against its last one unless the
sample of another container has cleared the full cache since, after which it counts as new. -/
theorem stats_run (calls : List Call) :
    (cacheAfter calls).length ≤ capacity ∧ (∀ call, Bounded (resultAfter calls call)) ∧
      (∀ capsuleHost polls, (∀ poll ∈ polls, ∃ calls call, resultAfter calls call = poll.2) →
        Bounded (capsuleStats capsuleHost polls)) ∧
      ∀ call sample, sampleOf call = some sample →
        (¬ClearedSince calls call.container.uuid → resultAfter calls call =
          measured call (latest calls call.container.uuid) sample) ∧
        (ClearedSince calls call.container.uuid →
          resultAfter calls call = measured call none sample) := by
  refine ⟨length_cacheAfter calls, fun call => bounded_stats _ call, fun capsuleHost polls h => ?_,
    fun call sample hsample => ?_⟩
  · refine bounded_capsuleStats capsuleHost fun poll hpoll => ?_
    obtain ⟨calls, call, hresult⟩ := h poll hpoll
    rw [← hresult]
    exact bounded_stats _ call
  · have hresult := congrArg Prod.fst (stats_of_sample hsample (cacheAfter calls))
    obtain ⟨hcleared, hkept⟩ := get?_cacheAfter calls call.container.uuid
    refine ⟨fun h => ?_, fun h => ?_⟩
    · rw [← hkept h]
      exact hresult
    · rw [← hcleared h]
      exact hresult

/-! ### A cleared sample -/

/-- The containers of a host, by number. -/
def name (i : ℕ) : String := String.ofList (List.replicate i 'a')

/-- A call that takes the sample of container `i`. -/
def call (i : ℕ) (sample : Sample) : Call where
  container := ⟨name i, some "c", none, true, none⟩
  response := .ok ⟨.unset, .counter sample.1, sample.2⟩

theorem name_injective : Function.Injective name := by
  intro i j h
  have hlength := congrArg List.length (String.ofList_injective h)
  simpa using hlength

theorem sampleOf_call (i : ℕ) {sample : Sample} (h : 0 < sample.2) :
    sampleOf (call i sample) = some sample := by
  have hid : hasText (some "c") = true := by decide
  simp [sampleOf, call, hid, nanoUsage, cumulative, h]

/-- A first call for each of the first `n` containers. -/
def firstCalls (n : ℕ) : List Call := (List.range n).map fun i => call i (0, 1)

theorem cacheAfter_firstCalls {n : ℕ} (h : n ≤ capacity) :
    cacheAfter (firstCalls n) = (List.range n).map fun i => (name i, (0, 1)) := by
  induction n with
  | zero => rfl
  | succ n ih =>
    have hnew : name n ∉ ((List.range n).map fun i => (name i, ((0, 1) : Sample))).map Prod.fst := by
      rw [List.map_map, List.mem_map]
      rintro ⟨i, hi, heq⟩
      exact (List.mem_range.1 hi).ne (name_injective heq)
    have hcalls : firstCalls (n + 1) = firstCalls n ++ [call n (0, 1)] := by
      simp [firstCalls, List.range_succ]
    have hset := Dict.set_of_notMem hnew ((0, 1) : Sample)
    rw [hcalls, cacheAfter_snoc, stats_of_sample (sampleOf_call n one_pos), ih (by omega)]
    change remember _ (name n) (0, 1) = _
    rw [remember, hset, if_neg (by simp; omega), List.range_succ, List.map_append]
    rfl

theorem latest_firstCalls (n : ℕ) : latest (firstCalls (n + 1)) (name 0) = some (0, 1) := by
  have hrest : ((List.range n).map Nat.succ).filterMap
      (fun i => sampledFor (name 0) (call i (0, 1))) = [] := by
    rw [List.filterMap_eq_nil_iff]
    intro i hi
    obtain ⟨j, -, rfl⟩ := List.mem_map.1 hi
    exact sampledFor_eq_none_of_ne fun h => absurd (name_injective h) (Nat.succ_ne_zero j)
  have hfirst : sampledFor (name 0) (call 0 (0, 1)) = some (0, 1) := by
    have hname : (call 0 (0, 1)).container.uuid = name 0 := rfl
    rw [sampledFor, if_pos hname]
    exact sampleOf_call 0 one_pos
  rw [latest, firstCalls, List.filterMap_map, List.range_succ_eq_map, List.filterMap_cons]
  simp only [Function.comp_apply, hfirst]
  change (_ :: ((List.range n).map Nat.succ).filterMap
    (fun i => sampledFor (name 0) (call i (0, 1)))).getLast? = _
  rw [hrest]
  rfl

/-- After the sample of one container more than the cache holds, the next sample of the first
one counts as new: its busy container is reported idle. -/
theorem not_measured_after_clear : ¬∀ calls call previous sample,
    latest calls call.container.uuid = some previous → sampleOf call = some sample →
    resultAfter calls call = measured call (some previous) sample := by
  intro h
  have hcleared : ClearedSince (firstCalls (capacity + 1)) (name 0) := by
    refine ⟨firstCalls capacity, call capacity (0, 1), [], ?_, ⟨?_, ?_, ?_⟩, ?_, rfl⟩
    · simp [firstCalls, List.range_succ]
    · rw [sampleOf_call _ one_pos]
      rfl
    · rw [cacheAfter_firstCalls le_rfl]
      refine Dict.get?_eq_none ?_
      rw [List.map_map, List.mem_map]
      rintro ⟨i, hi, heq⟩
      exact (List.mem_range.1 hi).ne (name_injective heq)
    · rw [cacheAfter_firstCalls le_rfl]
      simp
    · exact fun heq => absurd (name_injective heq) (by decide)
  have hsample := @sampleOf_call 0 (1, 2) two_pos
  have huuid : (call 0 (1, 2)).container.uuid = name 0 := rfl
  have hmeasured := h (firstCalls (capacity + 1)) (call 0 (1, 2)) (0, 1) (1, 2)
    (latest_firstCalls capacity) hsample
  have hnone := (get?_cacheAfter (firstCalls (capacity + 1)) (name 0)).1 hcleared
  rw [resultAfter, stats_of_sample hsample, huuid, hnone] at hmeasured
  simp [measured, rate, percentage, divide, cpuRequest, call, Except.bind, Except.map] at hmeasured

end Yggdrasil.CpuStats
