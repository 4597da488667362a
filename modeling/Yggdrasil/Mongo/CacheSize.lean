import Mathlib.Algebra.Order.Field.Rat
import Mathlib.Tactic.Linarith
import Mathlib.Tactic.NormNum
import Yggdrasil.Mongo.Merged

/-! The size of the cache: what a caller may give as the memory of the instance, and whether
the file is then written, with a cache size between the floor of MongoDB and two gigabytes. -/

namespace Yggdrasil.Mongo

open Python

/-- `int(memory)` gives this number. -/
def Memory.Denotes (memory : Memory) (n : ℤ) : Prop := memory.toInt = .ok n

/-! ### The size -/

theorem cacheSizeGb_bounds (n : ℤ) : 256 / 1000 ≤ cacheSizeGb n ∧ cacheSizeGb n ≤ 2 := by
  refine ⟨le_min (le_max_right _ _) (by norm_num), min_le_right _ _⟩

theorem cacheSizeGb_mono {m n : ℤ} (h : m ≤ n) : cacheSizeGb m ≤ cacheSizeGb n := by
  have hcast : (m : ℚ) ≤ n := by exact_mod_cast h
  refine min_le_min_right _ (max_le_max_right _ ?_)
  linarith

/-! ### The memory -/

theorem floatBound_pos : 0 < floatBound :=
  sub_pos.2 (pow_lt_pow_right₀ (by norm_num) (by norm_num))

theorem Memory.coerce_of_falsy {memory : Memory} (h : memory.truthy = false) :
    memory.coerce = memory := by
  rw [Memory.coerce, h]
  rfl

theorem Memory.coerce_of_denotes {memory : Memory} {n : ℤ} (ht : memory.truthy = true)
    (h : memory.Denotes n) : memory.coerce = .int n := by
  rw [Memory.coerce, if_pos ht, show memory.toInt = .ok n from h]

theorem Memory.coerce_of_not_denotes {memory : Memory} (ht : memory.truthy = true)
    (h : ∀ n, ¬memory.Denotes n) : memory.coerce = .int 0 := by
  rw [Memory.coerce, if_pos ht]
  cases hi : memory.toInt with
  | ok n => exact absurd hi (h n)
  | error e => rfl

/-- A memory that is given and not empty becomes a number: its own, or zero. -/
theorem Memory.exists_coerce {memory : Memory} (hn : memory ≠ .none) (he : memory ≠ .str "") :
    ∃ i, memory.coerce = .int i ∧ ∀ n, 0 < n → (memory.Denotes n ↔ i = n) := by
  cases ht : memory.truthy with
  | false =>
    cases memory with
    | none => exact absurd rfl hn
    | int i =>
      refine ⟨i, Memory.coerce_of_falsy ht, fun n _ => ?_⟩
      rw [Memory.Denotes, Memory.toInt, Except.ok.injEq]
    | str s => exact absurd (by simpa [Memory.truthy] using ht) fun hs : s = "" => he (hs ▸ rfl)
  | true =>
    by_cases h : ∃ n, memory.Denotes n
    · obtain ⟨n, hden⟩ := h
      refine ⟨n, Memory.coerce_of_denotes ht hden, fun n' _ => ?_⟩
      rw [Memory.Denotes, show memory.toInt = .ok n from hden, Except.ok.injEq]
    · push Not at h
      refine ⟨0, Memory.coerce_of_not_denotes ht h, fun n hpos => ?_⟩
      exact iff_of_false (h n) hpos.ne

/-- A memory that the guest agent can work with. -/
structure Memory.Usable (memory : Memory) : Prop where
  given : memory ≠ .none
  nonempty : memory ≠ .str ""
  bounded : ∀ n, memory.Denotes n → n < floatBound

theorem Memory.cacheSize_isOk {memory : Memory} :
    (∃ cacheSize, memory.coerce.cacheSize = .ok cacheSize) ↔ memory.Usable := by
  constructor
  · rintro ⟨cacheSize, hc⟩
    have hn : memory ≠ .none := by
      rintro rfl
      cases hc
    have he : memory ≠ .str "" := by
      rintro rfl
      cases hc
    refine ⟨hn, he, fun n hden => ?_⟩
    obtain ⟨i, hi, hiff⟩ := Memory.exists_coerce hn he
    by_contra hle
    rw [not_lt] at hle
    have hpos := floatBound_pos.trans_le hle
    rw [hi, (hiff n hpos).1 hden, Memory.cacheSize, if_pos hpos, if_pos hle] at hc
    cases hc
  · rintro ⟨hn, he, hb⟩
    obtain ⟨i, hi, hiff⟩ := Memory.exists_coerce hn he
    rw [hi, Memory.cacheSize]
    split_ifs with hpos hle
    · exact absurd (hb i ((hiff i hpos).2 rfl)) hle.not_gt
    · exact ⟨_, rfl⟩
    · exact ⟨_, rfl⟩

/-- There is a cache size for a positive number, and then it is the number's. -/
theorem Memory.cacheSize_eq_some {memory : Memory} {cacheSize : Option ℚ}
    (hc : memory.coerce.cacheSize = .ok cacheSize) {q : ℚ} :
    cacheSize = some q ↔ ∃ n, 0 < n ∧ memory.Denotes n ∧ q = cacheSizeGb n := by
  obtain ⟨hn, he, hb⟩ := Memory.cacheSize_isOk.1 ⟨cacheSize, hc⟩
  obtain ⟨i, hi, hiff⟩ := Memory.exists_coerce hn he
  rw [hi, Memory.cacheSize] at hc
  constructor
  · rintro rfl
    split_ifs at hc with hpos hle
    · exact ⟨i, hpos, (hiff i hpos).2 rfl, (Option.some.inj (Except.ok.inj hc)).symm⟩
    · cases hc
  · rintro ⟨n, hpos, hden, rfl⟩
    rw [(hiff n hpos).1 hden, if_pos hpos, if_neg (hb n hden).not_ge] at hc
    exact (Except.ok.inj hc).symm

/-! ### Writing the file -/

/-- A key that stands in a mapping which the loop comes to. -/
theorem reached_of_get? {options : Entries} {p : List Key} {k : Key} {v : Config}
    (hp : ¬Spelled p) (h : (Tree.node options).get? (p ++ [k]) = some v) : Reached options k := by
  induction p generalizing options with
  | nil =>
    rw [List.nil_append, Tree.get?_node_cons] at h
    obtain ⟨t, ht, _⟩ := Option.bind_eq_some_iff.1 h
    exact .here (Dict.mem_of_get? ht)
  | cons c p ih =>
    rw [spelled_cons, not_or, Bool.not_eq_true] at hp
    rw [List.cons_append, Tree.get?_node_cons] at h
    obtain ⟨t, ht, h⟩ := Option.bind_eq_some_iff.1 h
    cases t with
    | leaf a => cases p <;> cases h
    | node m => exact .inside (Dict.mem_of_get? ht) hp.1 (ih hp.2 h)

theorem exists_get?_of_reached {options : Entries} {k : Key} (h : Reached options k)
    (hd : Tree.Distinct (.node options)) :
    ∃ p v, ¬Spelled p ∧ (Tree.node options).get? (p ++ [k]) = some v := by
  induction h with
  | @here options e he =>
    refine ⟨[], e.2, not_spelled_nil, ?_⟩
    rw [List.nil_append, Tree.get?_node_cons, Dict.get?_of_mem hd.keys he, Option.bind_some,
      Tree.get?_nil]
  | @inside options m key k he hkey _ ih =>
    obtain ⟨p, v, hp, hv⟩ := ih (hd.values _ he)
    refine ⟨key :: p, v, fun hs => hp (spelled_of_cons hkey hs), ?_⟩
    rw [List.cons_append, Tree.get?_node_cons, Dict.get?_of_mem hd.keys he, Option.bind_some]
    exact hv

theorem spelled_of_location_nil {p : List Key} {k : Key} (h : location k = []) :
    Spelled (p ++ [k]) := by
  refine ⟨k, by simp, ?_⟩
  by_contra hd
  rw [location_of_plain (by simpa using hd)] at h
  cases h

theorem distinct_merged {options : Entries} (hd : Tree.Distinct (.node options))
    (cacheSize : Option ℚ) :
    Tree.Distinct (.node (Tree.merge options (defaults cacheSize))) :=
  hd.overlay (t := some (.node (defaults cacheSize))) fun _ hu =>
    Option.some.inj hu ▸ distinct_defaults cacheSize

/-- What remains under dotted keys shows no key of dots alone to a second loop. -/
def Rewritable (contents : Options) : Prop :=
  ∀ p k v, ¬Spelled p → location k = [] → Residual contents.entries (p ++ [k]) v →
    Dropped (p ++ [k])

theorem placed_merged_iff {contents : Options} {options : Entries} {cacheSize : Option ℚ}
    (h : normalize contents.entries = .ok options) :
    Placed (Tree.merge options (defaults cacheSize)) ↔ Rewritable contents := by
  have hd := distinct_normalize h contents.distinct
  constructor
  · intro hplaced p k v hp hk hres
    by_contra hrem
    obtain ⟨w, hw, _⟩ := settings_merged cacheSize hd
      ((get?_normalize h (spelled_of_location_nil hk)).2 ⟨hres, hrem⟩)
    exact hplaced k (reached_of_get? hp hw) hk
  · intro hre k hk hloc
    obtain ⟨p, v, hp, hv⟩ := exists_get?_of_reached hk (distinct_merged hd cacheSize)
    have hs := spelled_of_location_nil (p := p) hloc
    rcases get?_merged hd hv with ⟨w, hw, _⟩ | hw
    · obtain ⟨hres, hrem⟩ := (get?_normalize h hs).1 hw
      exact hrem (hre p k w hp hloc hres)
    · exact (undotted_iff (distinct_defaults cacheSize)).1 (undotted_defaults cacheSize) _ v hs hw

/-! ### The cache size in the file -/

/-- Where the options leave the place open, the file has the size found for the memory. -/
theorem get?_cacheSizePlace {options : Entries} (hd : Tree.Distinct (.node options))
    (ho : Tree.Open (.node options) cacheSizePlace) (cacheSize : Option ℚ) :
    (Tree.node (Tree.merge options (defaults cacheSize))).get? cacheSizePlace =
      cacheSize.map fun q => .leaf (.float q) := by
  have hget := Tree.get?_overlay_of_open hd ho (some (.node (defaults cacheSize)))
  cases cacheSize <;> exact hget

/-- The cache size in the file that the contents and the memory lead to. -/
structure CacheSized (contents : Options) (memory : Memory) (result : Entries) : Prop where
  present : ((Tree.node result).get? cacheSizePlace).isSome ↔ ∃ n, 0 < n ∧ memory.Denotes n
  bounded : ∀ n, 0 < n → memory.Denotes n → ∃ q,
    (Tree.node result).get? cacheSizePlace = some (.leaf (.float q)) ∧ 256 / 1000 ≤ q ∧ q ≤ 2
  monotone : ∀ larger result' n n' q q', memory.Denotes n → larger.Denotes n' → n ≤ n' →
    configurationContents contents.entries larger = .ok result' →
    (Tree.node result).get? cacheSizePlace = some (.leaf (.float q)) →
    (Tree.node result').get? cacheSizePlace = some (.leaf (.float q')) → q ≤ q'

/-- The file is written, and unless the contents set the cache size, it has the right one. -/
def SizesCache (contents : Options) (memory : Memory) : Prop :=
  ∃ result written, configurationContents contents.entries memory = .ok result ∧
    prepareConfiguration contents.entries memory = .ok written ∧
    ∀ options, normalize contents.entries = .ok options →
      Tree.Open (.node options) cacheSizePlace → CacheSized contents memory result

theorem cacheSized {contents : Options} {memory : Memory} {options : Entries}
    {cacheSize : Option ℚ} (hc : memory.coerce.cacheSize = .ok cacheSize)
    (h : normalize contents.entries = .ok options)
    (ho : Tree.Open (.node options) cacheSizePlace) :
    CacheSized contents memory (Tree.merge options (defaults cacheSize)) := by
  have hd := distinct_normalize h contents.distinct
  have hsize := get?_cacheSizePlace hd ho
  have hvalue : ∀ {memory : Memory} {cacheSize q n}, memory.coerce.cacheSize = .ok cacheSize →
      memory.Denotes n →
      (Tree.node (Tree.merge options (defaults cacheSize))).get? cacheSizePlace =
        some (.leaf (.float q)) → q = cacheSizeGb n := by
    intro memory cacheSize q n hc hden hq
    rw [hsize] at hq
    obtain ⟨q', hq', he⟩ := Option.map_eq_some_iff.1 hq
    cases he
    obtain ⟨n', _, hden', rfl⟩ := (Memory.cacheSize_eq_some hc).1 hq'
    rw [Except.ok.inj (hden.symm.trans hden')]
  constructor
  case present =>
    rw [hsize, Option.isSome_map, Option.isSome_iff_exists]
    simp only [Memory.cacheSize_eq_some hc]
    exact ⟨fun ⟨_, n, hpos, hden, _⟩ => ⟨n, hpos, hden⟩, fun ⟨n, hpos, hden⟩ =>
      ⟨_, n, hpos, hden, rfl⟩⟩
  case bounded =>
    intro n hpos hden
    refine ⟨cacheSizeGb n, ?_, cacheSizeGb_bounds n⟩
    rw [hsize, (Memory.cacheSize_eq_some hc).2 ⟨n, hpos, hden, rfl⟩]
    rfl
  case monotone =>
    intro larger result' n n' q q' hden hden' hle hresult hq hq'
    obtain ⟨cacheSize', options', hc', h', rfl⟩ := configurationContents_ok.1 hresult
    cases h.symm.trans h'
    rw [hvalue hc hden hq, hvalue hc' hden' hq']
    exact cacheSizeGb_mono hle

theorem prepareConfiguration_isOk {contents : Options} {memory : Memory} {result : Entries}
    (h : configurationContents contents.entries memory = .ok result) :
    (∃ written, prepareConfiguration contents.entries memory = .ok written) ↔
      Rewritable contents := by
  obtain ⟨cacheSize, options, _, hoptions, rfl⟩ := configurationContents_ok.1 h
  rw [← placed_merged_iff hoptions, ← normalize_isOk, prepareConfiguration, h]

def noOptions : Options := ⟨[], Tree.distinct_nil⟩

end Yggdrasil.Mongo
