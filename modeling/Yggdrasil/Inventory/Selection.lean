import Mathlib.Data.Prod.Lex
import Mathlib.Data.String.Basic
import Yggdrasil.Inventory.Report
import Yggdrasil.Library.Buckets
import Yggdrasil.Python.Number

/-! The choice of one endpoint for each service type. The endpoints of the region that are
not ignored are grouped by their type; of each group the one with the requested interface
that is least in the preference is chosen. `fold` is `str.casefold`: nothing here depends on
what it does. -/

namespace Yggdrasil.Inventory

open Python

variable (fold : String → String)

def interfaceNames : List (String × String) :=
  [("publicurl", "public"), ("internalurl", "internal"), ("adminurl", "admin")]

def normalizeInterface (value : String) : String :=
  let value := fold (strip value)
  (Dict.get? interfaceNames value).getD value

/-! ### Versions -/

def isDecimal (c : Char) : Bool := (digitValue c).isSome

/-- The digits of the pattern `v(\d+)$`, which also matches before a final line break. -/
def versionDigits (name : String) : Option (List Char) :=
  let cs := name.toList.reverse
  let ending := if cs.head? = some '\n' then cs.drop 1 else cs
  let digits := ending.takeWhile isDecimal
  if digits ≠ [] ∧ (ending.drop digits.length).head? = some 'v' then some digits.reverse else none

/-- The longest decimal text that `int` reads. -/
def intDigitLimit : ℕ := 4300

def tooManyDigits : Exc :=
  .other "Exceeds the limit (4300 digits) for integer string conversion"

/-- `int` of a text of decimal digits. -/
def intOfDigits (digits : List Char) : Except Exc ℕ :=
  if intDigitLimit < digits.length then .error tooManyDigits
  else .ok ((natOfDigits digits).getD 0)

/-! ### The choice -/

/-- Canonical types first, then the highest version, the type and the URL. -/
abbrev Rank := ℕ ×ₗ ℤ ×ₗ String ×ₗ String

def mkRank (canonical : Bool) (version : ℕ) (rawServiceType url : String) : Rank :=
  toLex (if canonical then 0 else 1, toLex (-(version : ℤ), toLex (rawServiceType, url)))

def isCanonical (e : Endpoint) : Bool := fold e.rawServiceType == fold e.serviceType

def rank (e : Endpoint) : Except Exc Rank :=
  match versionDigits (fold e.rawServiceType) with
  | none => .ok (mkRank (isCanonical fold e) 0 e.rawServiceType e.url)
  | some digits =>
    (intOfDigits digits).map fun version => mkRank (isCanonical fold e) version e.rawServiceType e.url

def candidates (endpoints : List Endpoint) (region : Option String) : List Endpoint :=
  let candidates := endpoints.filter fun e => e.enabled && !isIgnoredEndpoint e
  match region with
  | some region =>
    if region = "" then candidates else candidates.filter fun e => e.region == region
  | none => candidates

def noEndpoints (interface : String) (region : Option String) : Exc :=
  .inventory .endpointDiscovery ("no enabled OpenStack endpoints match interface " ++
    Python.reprStr interface ++ match region with
      | some region => if region = "" then "" else " in region " ++ Python.reprStr region
      | none => "")

def noInterface (serviceType interface : String) (endpoints : List Endpoint) : Exc :=
  let names := endpoints.map fun e => if e.serviceName = "" then e.rawServiceType else e.serviceName
  .inventory .endpointDiscovery ("service " ++ Python.reprStr serviceType ++ " (" ++
    ", ".intercalate (names.dedup.insertionSort (· ≤ ·)) ++ ") has no " ++ Python.reprStr interface ++
    " endpoint")

/-- Its preference, with the version of any length. -/
def preference (e : Endpoint) : Rank :=
  mkRank (isCanonical fold e)
    ((versionDigits (fold e.rawServiceType)).elim 0 fun digits => (natOfDigits digits).getD 0)
    e.rawServiceType e.url

/-- A type whose version `int` refuses to read. -/
def Oversized (e : Endpoint) : Prop :=
  ∃ digits, versionDigits (fold e.rawServiceType) = some digits ∧ intDigitLimit < digits.length

/-- The choice among the endpoints of one type. All ranks are computed before one is chosen. -/
def selectOne (interface : String) (service : String × List Endpoint) : Except Exc Endpoint := do
  let ranked ← (service.2.filter fun e => e.interface == interface).mapM fun e =>
    (rank fold e).map fun r => (r, e)
  match (ranked.insertionSort fun a b => a.1 ≤ b.1).head? with
  | some (_, e) => .ok e
  | none => .error (noInterface service.1 interface service.2)

/-- The endpoints of each type, in the order of the types. -/
def services (candidates : List Endpoint) : List (String × List Endpoint) :=
  (Dict.buckets Endpoint.serviceType candidates).insertionSort fun a b => a.1 ≤ b.1

def selectEndpoints (endpoints : List Endpoint) (interface : String) (region : Option String) :
    Except Exc (List Endpoint) :=
  let interface := normalizeInterface fold interface
  let candidates := candidates endpoints region
  if candidates = [] then .error (noEndpoints interface region)
  else (services candidates).mapM (selectOne fold interface)

/-! ### The choice for one type -/

section One

variable {fold}

theorem rank_of_oversized {e : Endpoint} (h : Oversized fold e) : rank fold e = .error tooManyDigits := by
  obtain ⟨digits, hdigits, hlong⟩ := h
  simp [rank, hdigits, intOfDigits, hlong, Except.map]

theorem rank_of_not_oversized {e : Endpoint} (h : ¬Oversized fold e) :
    rank fold e = .ok (preference fold e) := by
  unfold rank preference
  cases hdigits : versionDigits (fold e.rawServiceType) with
  | none => rfl
  | some digits =>
    have hshort : ¬intDigitLimit < digits.length := fun hlong => h ⟨digits, hdigits, hlong⟩
    simp [intOfDigits, hshort, Except.map]

/-- Only endpoints with one URL have the same preference. -/
theorem url_of_preference {e e' : Endpoint} (h : preference fold e ≤ preference fold e')
    (h' : preference fold e' ≤ preference fold e) : e.url = e'.url := by
  have heq := le_antisymm h h'
  simp only [preference, mkRank, EmbeddingLike.apply_eq_iff_eq, Prod.mk.injEq] at heq
  exact heq.2.2.2

/-- The endpoint is least in the preference among those of its type with the interface. -/
structure Chosen (fold : String → String) (candidates : List Endpoint) (interface : String)
    (e : Endpoint) : Prop where
  mem : e ∈ candidates
  interface_eq : e.interface = interface
  least : ∀ e' ∈ candidates, e'.serviceType = e.serviceType → e'.interface = interface →
    preference fold e ≤ preference fold e'

variable {interface : String} {service : String × List Endpoint}

theorem selectOne_of_not_oversized
    (h : ∀ e ∈ service.2, e.interface = interface → ¬Oversized fold e) :
    selectOne fold interface service =
      match (((service.2.filter fun e => e.interface == interface).map fun e =>
        (preference fold e, e)).insertionSort fun a b => a.1 ≤ b.1).head? with
      | some (_, e) => .ok e
      | none => .error (noInterface service.1 interface service.2) := by
  unfold selectOne
  rw [mapM_eq_ok_map (g := fun e => (preference fold e, e))]
  · rfl
  · intro e he
    rw [List.mem_filter, beq_iff_eq] at he
    rw [rank_of_not_oversized (h e he.1 he.2)]
    rfl

/-- The choice fails exactly without an endpoint of the interface, or at a version that cannot
be read. -/
theorem selectOne_fails : (∃ x, selectOne fold interface service = .error x) ↔
    (∀ e ∈ service.2, e.interface ≠ interface) ∨
      ∃ e ∈ service.2, e.interface = interface ∧ Oversized fold e := by
  by_cases hover : ∃ e ∈ service.2, e.interface = interface ∧ Oversized fold e
  · refine iff_of_true ?_ (.inr hover)
    obtain ⟨e, he, hinterface, hlong⟩ := hover
    have hfail : ∃ x, ((service.2.filter fun e => e.interface == interface).mapM fun e =>
        (rank fold e).map fun r => (r, e)) = .error x := by
      refine mapM_fails.2 ⟨e, List.mem_filter.2 ⟨he, by simpa using hinterface⟩, tooManyDigits, ?_⟩
      rw [rank_of_oversized hlong]
      rfl
    obtain ⟨x, hx⟩ := hfail
    refine ⟨x, ?_⟩
    unfold selectOne
    rw [hx]
    rfl
  · rw [or_iff_left hover, selectOne_of_not_oversized fun e he hinterface hlong =>
      hover ⟨e, he, hinterface, hlong⟩]
    by_cases hnone : service.2.filter (fun e => e.interface == interface) = []
    · refine iff_of_true ⟨_, by rw [hnone]; rfl⟩ fun e he hinterface => ?_
      exact List.filter_eq_nil_iff.1 hnone e he (by simpa using hinterface)
    · obtain ⟨a, ha⟩ := head?_insertionSort_isSome (r := fun a b : Rank × Endpoint => a.1 ≤ b.1)
        (l := (service.2.filter fun e => e.interface == interface).map fun e =>
          (preference fold e, e)) (by simpa using hnone)
      refine iff_of_false (by rw [ha]; simp) fun hall => hnone ?_
      exact List.filter_eq_nil_iff.2 fun e he => by simpa using hall e he

theorem selectOne_ok {e : Endpoint} (h : selectOne fold interface service = .ok e) :
    e ∈ service.2 ∧ e.interface = interface ∧
      ∀ e' ∈ service.2, e'.interface = interface → preference fold e ≤ preference fold e' := by
  have hshort : ∀ e ∈ service.2, e.interface = interface → ¬Oversized fold e := by
    intro e' he' hinterface hlong
    obtain ⟨x, hx⟩ := selectOne_fails.2 (.inr ⟨e', he', hinterface, hlong⟩)
    rw [hx] at h
    cases h
  rw [selectOne_of_not_oversized hshort] at h
  split at h
  · rename_i r e' hhead
    cases h
    obtain ⟨hmem, hleast⟩ := least_of_head?_insertionSort hhead
    obtain ⟨e', he', heq⟩ := List.mem_map.1 hmem
    cases heq
    rw [List.mem_filter, beq_iff_eq] at he'
    refine ⟨he'.1, he'.2, fun e' he'' hinterface => ?_⟩
    exact hleast _ (List.mem_map.2 ⟨e', List.mem_filter.2 ⟨he'', by simpa using hinterface⟩, rfl⟩)
  · cases h

end One

/-! ### The choice for all types -/

section All

variable {fold} {endpoints : List Endpoint} {interface : String} {region : Option String}

theorem mem_services {candidates : List Endpoint} {service : String × List Endpoint} :
    service ∈ services candidates ↔ service.1 ∈ candidates.map Endpoint.serviceType ∧
      service.2 = candidates.filter fun e => e.serviceType = service.1 := by
  rw [services, List.mem_insertionSort]
  exact Dict.mem_buckets

theorem mem_keys_services {candidates : List Endpoint} {t : String} :
    t ∈ (services candidates).map Prod.fst ↔ t ∈ candidates.map Endpoint.serviceType := by
  constructor
  · intro ht
    obtain ⟨service, hservice, rfl⟩ := List.mem_map.1 ht
    exact (mem_services.1 hservice).1
  · exact fun ht => List.mem_map.2 ⟨(t, candidates.filter fun e => e.serviceType = t),
      mem_services.2 ⟨ht, rfl⟩, rfl⟩

theorem nodup_services (candidates : List Endpoint) :
    ((services candidates).map Prod.fst).Nodup :=
  ((List.perm_insertionSort _ _).map _).nodup_iff.2 (Dict.nodup_buckets _)

/-- Selection fails exactly without a candidate, where a type lacks the interface, or at a
version that cannot be read. -/
theorem selectEndpoints_fails :
    (∃ x, selectEndpoints fold endpoints interface region = .error x) ↔
      candidates endpoints region = [] ∨
      (∃ e ∈ candidates endpoints region, ∀ e' ∈ candidates endpoints region,
        e'.serviceType = e.serviceType → e'.interface ≠ normalizeInterface fold interface) ∨
      ∃ e ∈ candidates endpoints region,
        e.interface = normalizeInterface fold interface ∧ Oversized fold e := by
  by_cases hnone : candidates endpoints region = []
  · exact iff_of_true ⟨_, if_pos hnone⟩ (.inl hnone)
  · rw [or_iff_right hnone, selectEndpoints, if_neg hnone]
    refine mapM_fails.trans ?_
    constructor
    · rintro ⟨⟨serviceType, group⟩, hservice, hfail⟩
      obtain ⟨e, he, rfl⟩ := List.mem_map.1 (mem_services.1 hservice).1
      obtain rfl : group = (candidates endpoints region).filter
          fun e' => e'.serviceType = e.serviceType := (mem_services.1 hservice).2
      rcases selectOne_fails.1 hfail with hlacks | ⟨e', he', hinterface, hlong⟩
      · refine .inl ⟨e, he, fun e' he' hsame => hlacks e' (List.mem_filter.2 ⟨he', ?_⟩)⟩
        simpa using hsame
      · exact .inr ⟨e', (List.mem_filter.1 he').1, hinterface, hlong⟩
    · have hfind : ∀ e ∈ candidates endpoints region, (e.serviceType,
          (candidates endpoints region).filter fun e' => e'.serviceType = e.serviceType) ∈
            services (candidates endpoints region) :=
        fun e he => mem_services.2 ⟨List.mem_map_of_mem he, rfl⟩
      rintro (⟨e, he, hlacks⟩ | ⟨e, he, hinterface, hlong⟩)
      · refine ⟨_, hfind e he, selectOne_fails.2 (.inl fun e' he' => ?_)⟩
        obtain ⟨he', hsame⟩ := List.mem_filter.1 he'
        exact hlacks e' he' (of_decide_eq_true hsame)
      · refine ⟨_, hfind e he, selectOne_fails.2 (.inr ⟨e, ?_, hinterface, hlong⟩)⟩
        exact List.mem_filter.2 ⟨he, by simp⟩

theorem selectEndpoints_ok {selected : List Endpoint}
    (h : selectEndpoints fold endpoints interface region = .ok selected) :
    selected.map Endpoint.serviceType = (services (candidates endpoints region)).map Prod.fst ∧
      ∀ e ∈ selected, Chosen fold (candidates endpoints region) (normalizeInterface fold interface) e := by
  unfold selectEndpoints at h
  dsimp only at h
  split_ifs at h
  have hall : List.Forall₂ (fun service e => e.serviceType = service.1 ∧
      Chosen fold (candidates endpoints region) (normalizeInterface fold interface) e)
      (services (candidates endpoints region)) selected := by
    refine (List.forall₂_and_left _ _).2 ⟨fun s hs => hs, mapM_eq_ok.1 h⟩ |>.imp ?_
    rintro ⟨serviceType, group⟩ e ⟨hservice, hone⟩
    obtain rfl : group = (candidates endpoints region).filter fun e => e.serviceType = serviceType :=
      (mem_services.1 hservice).2
    obtain ⟨hmem, hinterface, hleast⟩ := selectOne_ok hone
    obtain ⟨he, htype⟩ := List.mem_filter.1 hmem
    have htype := of_decide_eq_true htype
    refine ⟨htype, he, hinterface, fun e' he' hsame hinterface' => ?_⟩
    exact hleast e' (List.mem_filter.2 ⟨he', by simpa using hsame.trans htype⟩) hinterface'
  constructor
  · have htypes := hall.imp fun _ _ h => h.1
    rw [← List.forall₂_eq_eq_eq, List.forall₂_map_left_iff, List.forall₂_map_right_iff]
    exact htypes.flip
  · intro e he
    obtain ⟨i, hi, rfl⟩ := List.getElem_of_mem he
    exact (hall.get (by rw [hall.length_eq]; exact hi) hi).2

theorem mem_candidates {e : Endpoint} :
    e ∈ candidates endpoints region ↔ e ∈ endpoints ∧ e.enabled = true ∧
      isIgnoredEndpoint e = false ∧ ∀ r, region = some r → r ≠ "" → e.region = r := by
  have hkept : e ∈ (endpoints.filter fun e => e.enabled && !isIgnoredEndpoint e) ↔
      e ∈ endpoints ∧ e.enabled = true ∧ isIgnoredEndpoint e = false := by simp
  unfold candidates
  cases region with
  | none => rw [hkept]; simp
  | some r =>
    dsimp only
    split_ifs with hr
    · rw [hkept]
      simp [hr]
    · rw [List.mem_filter, hkept]
      simp [hr, and_assoc]

theorem mem_candidates_of_perm {endpoints' : List Endpoint} (h : endpoints.Perm endpoints')
    (region : Option String) (e : Endpoint) :
    e ∈ candidates endpoints region ↔ e ∈ candidates endpoints' region := by
  rw [mem_candidates, mem_candidates, h.mem_iff]

/-- Another order of the endpoints changes neither whether the choice fails nor what is chosen
for each type, up to endpoints with one URL. -/
theorem selected_perm {endpoints' : List Endpoint} (h : endpoints.Perm endpoints')
    {selected selected' : List Endpoint}
    (hs : selectEndpoints fold endpoints interface region = .ok selected)
    (hs' : selectEndpoints fold endpoints' interface region = .ok selected') :
    ∀ p ∈ selected.map fun e => (e.serviceType, e.url),
      p ∈ selected'.map fun e => (e.serviceType, e.url) := by
  have hcandidates := mem_candidates_of_perm h region
  obtain ⟨-, hchosen⟩ := selectEndpoints_ok hs
  obtain ⟨htypes', hchosen'⟩ := selectEndpoints_ok hs'
  intro p hp
  obtain ⟨e, he, rfl⟩ := List.mem_map.1 hp
  have hbest := hchosen e he
  have htype : e.serviceType ∈ selected'.map Endpoint.serviceType := by
    rw [htypes', mem_keys_services]
    exact List.mem_map_of_mem ((hcandidates e).1 hbest.mem)
  obtain ⟨e', he', hsame⟩ := List.mem_map.1 htype
  have hbest' := hchosen' e' he'
  refine List.mem_map.2 ⟨e', he', Prod.ext hsame ?_⟩
  refine url_of_preference (hbest'.least e ((hcandidates e).1 hbest.mem) hsame.symm
    hbest.interface_eq) (hbest.least e' ((hcandidates e').2 hbest'.mem) hsame hbest'.interface_eq)

end All

/-- For every list of endpoints, interface and region: when the choice fails, what it returns,
and that the order of the endpoints does not matter. -/
theorem selectEndpoints_spec (endpoints : List Endpoint) (interface : String)
    (region : Option String) :
    ((∃ x, selectEndpoints fold endpoints interface region = .error x) ↔
      candidates endpoints region = [] ∨
      (∃ e ∈ candidates endpoints region, ∀ e' ∈ candidates endpoints region,
        e'.serviceType = e.serviceType → e'.interface ≠ normalizeInterface fold interface) ∨
      ∃ e ∈ candidates endpoints region,
        e.interface = normalizeInterface fold interface ∧ Oversized fold e) ∧
    (∀ selected, selectEndpoints fold endpoints interface region = .ok selected →
      (selected.map Endpoint.serviceType).Nodup ∧
      (∀ t, t ∈ selected.map Endpoint.serviceType ↔
        t ∈ (candidates endpoints region).map Endpoint.serviceType) ∧
      ∀ e ∈ selected,
        Chosen fold (candidates endpoints region) (normalizeInterface fold interface) e) ∧
    ∀ endpoints', endpoints.Perm endpoints' →
      ((∃ x, selectEndpoints fold endpoints interface region = .error x) ↔
        ∃ x, selectEndpoints fold endpoints' interface region = .error x) ∧
      ∀ selected selected', selectEndpoints fold endpoints interface region = .ok selected →
        selectEndpoints fold endpoints' interface region = .ok selected' →
        ∀ p, (p ∈ selected.map fun e => (e.serviceType, e.url)) ↔
          p ∈ selected'.map fun e => (e.serviceType, e.url) := by
  refine ⟨selectEndpoints_fails, fun selected hs => ?_, fun endpoints' hperm => ⟨?_, ?_⟩⟩
  · obtain ⟨htypes, hchosen⟩ := selectEndpoints_ok hs
    rw [htypes]
    exact ⟨nodup_services _, fun t => mem_keys_services, hchosen⟩
  · have hcandidates := mem_candidates_of_perm hperm region
    have hnil : candidates endpoints region = [] ↔ candidates endpoints' region = [] := by
      simp only [List.eq_nil_iff_forall_not_mem, hcandidates]
    rw [selectEndpoints_fails, selectEndpoints_fails]
    simp only [hnil, hcandidates]
  · intro selected selected' hs hs' p
    exact ⟨selected_perm hperm hs hs' p, selected_perm hperm.symm hs' hs p⟩

/-- A name that ends in `v` and decimal digits has them as its version. -/
theorem versionDigits_eq {cs digits : List Char} (hne : digits ≠ [])
    (hdigits : ∀ c ∈ digits, isDecimal c = true) :
    versionDigits (String.ofList (cs ++ 'v' :: digits)) = some digits := by
  have hreverse : (cs ++ 'v' :: digits).reverse = digits.reverse ++ 'v' :: cs.reverse := by simp
  have hhead : (digits.reverse ++ 'v' :: cs.reverse).head? ≠ some '\n' := by
    cases hr : digits.reverse with
    | nil => exact absurd (List.reverse_eq_nil_iff.1 hr) hne
    | cons d rest =>
      have hdecimal := hdigits d (List.mem_reverse.1 (by rw [hr]; exact List.mem_cons_self))
      rw [List.cons_append, List.head?_cons, ne_eq, Option.some.injEq]
      rintro rfl
      exact absurd hdecimal (by decide)
  have htake : (digits.reverse ++ 'v' :: cs.reverse).takeWhile isDecimal = digits.reverse := by
    rw [List.takeWhile_append_of_pos (fun c hc => hdigits c (List.mem_reverse.1 hc)),
      List.takeWhile_cons_of_neg (by decide), List.append_nil]
  unfold versionDigits
  simp only [String.toList_ofList, hreverse, if_neg hhead, htake, List.drop_left, List.head?_cons]
  rw [if_pos ⟨by simpa using hne, trivial⟩, List.reverse_reverse]

/-- An endpoint whose type is `v` and a number of `n` digits. -/
def longVersion (n : ℕ) : Endpoint :=
  ⟨"e1", "RegionOne", "load", String.ofList ('v' :: List.replicate n '1'), "load", "public",
    "http://load", true⟩

theorem casefold_longVersion (n : ℕ) :
    casefold (longVersion n).rawServiceType = String.ofList ([] ++ 'v' :: List.replicate n '1') := by
  have hdigit : casefoldChar '1' = ['1'] := by decide
  rw [casefold, longVersion, String.toList_ofList, List.flatMap_cons, List.nil_append,
    List.flatMap_replicate, hdigit]
  simp [casefoldChar, lowerChar]

theorem oversized_longVersion {n : ℕ} (hn : intDigitLimit < n) :
    Oversized casefold (longVersion n) := by
  refine ⟨List.replicate n '1', ?_, by rwa [List.length_replicate]⟩
  rw [casefold_longVersion]
  refine versionDigits_eq (fun hnil => ?_) fun c hc => ?_
  · rw [List.replicate_eq_nil_iff] at hnil
    rw [hnil] at hn
    exact absurd hn (Nat.not_lt_zero _)
  · rw [List.eq_of_mem_replicate hc]
    decide

theorem strip_longVersion (n : ℕ) :
    strip (longVersion n).rawServiceType = (longVersion n).rawServiceType := by
  have hlast : ((List.replicate n '1').reverse ++ ['v']).dropWhile isSpace =
      (List.replicate n '1').reverse ++ ['v'] := by
    rw [List.reverse_replicate]
    cases n with
    | zero => decide
    | succ n =>
      rw [List.replicate_succ, List.cons_append]
      exact List.dropWhile_cons_of_neg (by decide)
  rw [strip, longVersion, String.toList_ofList, stripList, List.dropWhile_cons_of_neg (by decide),
    List.reverse_cons, hlast, List.reverse_append, List.reverse_reverse]
  rfl

theorem mem_candidates_longVersion (n : ℕ) {e : Endpoint} :
    e ∈ candidates [longVersion n] none ↔ e = longVersion n := by
  have hraw : ignoredServiceTypes.contains (casefold (longVersion n).rawServiceType) = false := by
    have hfirst : ∀ name ∈ ignoredServiceTypes, name.toList.head? ≠ some 'v' := by decide +kernel
    rw [casefold_longVersion, Bool.eq_false_iff, ne_eq, List.contains_iff_mem]
    intro hmem
    exact hfirst _ hmem (by rw [String.toList_ofList]; rfl)
  have hname : ignoredServiceTypes.contains (casefold (strip "load")) = false := by decide +kernel
  have hkept : isIgnoredEndpoint (longVersion n) = false := by
    simp only [isIgnoredEndpoint, List.any_cons, List.any_nil, strip_longVersion, hraw]
    simp only [longVersion, hname, Bool.or_self]
  rw [mem_candidates, List.mem_singleton]
  constructor
  · exact And.left
  · rintro rfl
    exact ⟨rfl, rfl, hkept, fun r hr => by cases hr⟩

/-- The only endpoint of its type has the interface, and still the choice fails. -/
theorem selectEndpoints_longVersion :
    ¬∀ endpoints interface region,
      (∃ x, selectEndpoints casefold endpoints interface region = .error x) ↔
        candidates endpoints region = [] ∨
        ∃ e ∈ candidates endpoints region, ∀ e' ∈ candidates endpoints region,
          e'.serviceType = e.serviceType →
            e'.interface ≠ normalizeInterface casefold interface := by
  intro h
  have hinterface : normalizeInterface casefold "public" = "public" := by decide +kernel
  have hmem : ∀ e, e ∈ candidates [longVersion 4301] none ↔ e = longVersion 4301 :=
    fun e => mem_candidates_longVersion 4301
  have hfails := selectEndpoints_fails.2 (.inr (.inr ⟨longVersion 4301, (hmem _).2 rfl,
    hinterface.symm, oversized_longVersion (by decide)⟩))
  rcases (h _ _ _).1 hfails with hnil | ⟨e, he, hlacks⟩
  · rw [List.eq_nil_iff_forall_not_mem] at hnil
    exact hnil (longVersion 4301) ((hmem _).2 rfl)
  · obtain rfl := (hmem e).1 he
    exact hlacks (longVersion 4301) he rfl hinterface.symm

end Yggdrasil.Inventory
