import Yggdrasil.Exporter.Scripts

/-! What the scripts have written when they are done is the text of a JSON object with one
member for each metric. -/

namespace Yggdrasil.Exporter

open Python

/-! ### Names -/

def isMetricChar (c : Char) : Bool := c.isAlphanum || c == '_' || c == ':'

/-- The names that every version of the Prometheus client takes. -/
def isMetricName (name : String) : Bool :=
  match name.toList with
  | [] => false
  | c :: cs => isMetricChar c && !c.isDigit && cs.all isMetricChar

/-- A part of a metric name. -/
def Word (s : String) : Prop := ∀ c ∈ s.toList, isMetricChar c

instance (s : String) : Decidable (Word s) :=
  decidable_of_iff (s.toList.all isMetricChar) List.all_eq_true

theorem isMetricName_append {s t : String} (hs : isMetricName s) (ht : Word t) :
    isMetricName (s ++ t) := by
  unfold isMetricName at hs ⊢
  rw [String.toList_append]
  cases hl : s.toList with
  | nil => simp [hl] at hs
  | cons c cs =>
    have hall : ∀ d ∈ t.toList, isMetricChar d = true := ht
    simp only [hl, Bool.and_eq_true, List.all_eq_true] at hs
    simp only [List.cons_append, Bool.and_eq_true, List.all_eq_true, List.mem_append]
    exact ⟨hs.1, fun d hd => hd.elim (hs.2 d) (hall d)⟩

theorem mem_squeezeFrom {p : Char → Bool} {c : Char} :
    ∀ {b : Bool} {cs : List Char}, c ∈ squeezeFrom p b cs → c = '_' ∨ (c ∈ cs ∧ p c = false)
  | _, [], h => by cases h
  | b, d :: cs, h => by
    rw [squeezeFrom] at h
    split_ifs at h with hd hb
    · exact (mem_squeezeFrom h).imp_right fun h => ⟨List.mem_cons_of_mem _ h.1, h.2⟩
    · rcases List.mem_cons.1 h with h | h
      · exact .inl h
      · exact (mem_squeezeFrom h).imp_right fun h => ⟨List.mem_cons_of_mem _ h.1, h.2⟩
    · rcases List.mem_cons.1 h with rfl | h
      · exact .inr ⟨List.mem_cons_self, by simpa using hd⟩
      · exact (mem_squeezeFrom h).imp_right fun h => ⟨List.mem_cons_of_mem _ h.1, h.2⟩

theorem mem_of_mem_stripList {p : Char → Bool} {cs : List Char} {c : Char}
    (h : c ∈ stripList p cs) : c ∈ cs := by
  rw [stripList, List.mem_reverse] at h
  have h' := (List.dropWhile_sublist p).subset h
  rw [List.mem_reverse] at h'
  exact (List.dropWhile_sublist p).subset h'

theorem isMetricChar_of_isNameChar {c : Char} (h : isNameChar c) : isMetricChar c := by
  have hc : ('a' ≤ c ∧ c ≤ 'z') ∨ c.isDigit = true := by simpa [isNameChar] using h
  rcases hc with hc | hc
  · have hlower : c.isLower := isLower_iff_toNat.2 hc
    simp [isMetricChar, isAlphanum_iff.2 (.inr (.inl hlower))]
  · simp [isMetricChar, isAlphanum_iff.2 (.inr (.inr hc))]

theorem word_sanitizeMetricName (value : String) : Word (sanitizeMetricName value) := by
  intro c hc
  rw [sanitizeMetricName, String.toList_ofList] at hc
  rcases mem_squeezeFrom hc with rfl | ⟨hc, -⟩
  · rfl
  · rcases mem_squeezeFrom (mem_of_mem_stripList hc) with rfl | ⟨-, hc⟩
    · rfl
    · exact isMetricChar_of_isNameChar (by simpa using hc)

theorem toNat_of_isMetricChar {c : Char} (h : isMetricChar c) : 0x20 ≤ c.toNat := by
  simp only [isMetricChar, Bool.or_eq_true, beq_iff_eq, isAlphanum_iff, isUpper_iff_toNat,
    isLower_iff_toNat, Char.isDigit_iff_toNat] at h
  have hA : 'A'.toNat = 65 := rfl
  have ha : 'a'.toNat = 97 := rfl
  have h0 : '0'.toNat = 48 := rfl
  rcases h with (h | rfl) | rfl
  · omega
  · decide
  · decide

theorem isPlain_of_isMetricChar {c : Char} (h : isMetricChar c ∨ c = '.') : Json.isPlain c := by
  have hne : c ≠ '"' ∧ c ≠ '\\' := by
    constructor <;> (rintro rfl; revert h; decide)
  have hge : 0x20 ≤ c.toNat := by
    rcases h with h | rfl
    · exact toNat_of_isMetricChar h
    · decide
  simp [Json.isPlain, hne.1, hne.2, hge]

/-! ### Metrics -/

/-- A metric whose name every client takes and whose value is a number. -/
def Proper (m : Metric) : Prop := isMetricName m.1 ∧ Json.Numeral m.2.toList

theorem readable_of_proper {m : Metric} (h : Proper m) : Json.Readable m := by
  refine ⟨fun c hc => isPlain_of_isMetricChar (.inl ?_), h.2⟩
  have hname := h.1
  unfold isMetricName at hname
  cases hl : m.1.toList with
  | nil => simp [hl] at hname
  | cons d ds =>
    simp only [hl, Bool.and_eq_true, List.all_eq_true] at hname
    rw [hl] at hc
    rcases List.mem_cons.1 hc with rfl | hc
    · exact hname.1.1
    · exact hname.2 c hc

theorem numeral_bit (b : Bool) : Json.Numeral (if b then "1" else "0").toList := by
  cases b
  · exact Json.numeral_toString 0
  · exact Json.numeral_toString 1

theorem numeral_health (expected present : ℕ) : Json.Numeral (health expected present).toList := by
  unfold health
  split_ifs
  · exact Json.numeral_toString (-1)
  · exact numeral_bit true
  · exact numeral_bit false

theorem proper_interfaceMetrics (h : Host) (interface : String) :
    ∀ m ∈ interfaceMetrics h interface, Proper m := by
  intro m hm
  have hname : isMetricName ("network_interface_" ++ sanitizeMetricName interface) :=
    isMetricName_append (by decide) (word_sanitizeMetricName interface)
  rcases List.mem_pair.1 hm with rfl | rfl
  · refine ⟨isMetricName_append hname (by decide), numeral_bit _⟩
  · refine ⟨isMetricName_append hname (by decide), ?_⟩
    dsimp only
    rcases h.operstate interface with _ | state
    · exact numeral_bit false
    · by_cases hs : state = "up"
      · simpa [hs] using numeral_bit true
      · simpa [hs] using numeral_bit false

theorem proper_addMetric {t : Tally} (ht : ∀ m ∈ t.metrics, Proper m) {name value : String}
    (hm : Proper (name, value)) : ∀ m ∈ (t.addMetric name value).metrics, Proper m := by
  intro m h
  rcases List.mem_append.1 h with h | h
  · exact ht m h
  · rw [List.mem_singleton.1 h]
    exact hm

theorem proper_checkRoutesForTable (h : Host) {t : Tally} (ht : ∀ m ∈ t.metrics, Proper m)
    (table : String) (service : Option (List String)) :
    ∀ m ∈ (checkRoutesForTable h t table service).metrics, Proper m := by
  have hname (suffix : String) (hs : Word suffix) :
      isMetricName ("network_routes_" ++ sanitizeMetricName table ++ suffix) :=
    isMetricName_append (isMetricName_append (by decide) (word_sanitizeMetricName table)) hs
  have hconfigured := hname "_configured" (by decide)
  have hhealthy := hname "_healthy" (by decide)
  have hexpected := hname "_expected_routes" (by decide)
  have hpresent := hname "_present_routes" (by decide)
  cases service with
  | none =>
    apply proper_addMetric _ ⟨hpresent, numeral_bit false⟩
    apply proper_addMetric _ ⟨hexpected, numeral_bit false⟩
    apply proper_addMetric _ ⟨hhealthy, Json.numeral_toString (-1)⟩
    exact proper_addMetric ht ⟨hconfigured, numeral_bit false⟩
  | some file =>
    apply proper_addMetric _ ⟨hhealthy, numeral_health _ _⟩
    intro m hm
    simp only [List.append_assoc, List.mem_append, List.mem_map, List.mem_cons, List.not_mem_nil,
      or_false] at hm
    rcases hm with hm | ⟨route, -, rfl⟩ | rfl | rfl | rfl
    · exact ht m hm
    · refine ⟨isMetricName_append (isMetricName_append (isMetricName_append (isMetricName_append
        (by decide) (word_sanitizeMetricName table)) (by decide))
        (word_sanitizeMetricName route)) (by decide), numeral_bit _⟩
    · exact ⟨hconfigured, numeral_bit true⟩
    · exact ⟨hexpected, Json.numeral_toString _⟩
    · exact ⟨hpresent, Json.numeral_toString _⟩

theorem proper_routeTally (h : Host) : ∀ m ∈ (routeTally h).metrics, Proper m := by
  have hfold (services : List (String × Option (List String))) (t : Tally)
      (ht : ∀ m ∈ t.metrics, Proper m) :
      ∀ m ∈ (services.foldl (fun t s => checkRoutesForTable h t s.1 s.2) t).metrics, Proper m := by
    induction services generalizing t with
    | nil => exact ht
    | cons s services ih => exact ih _ (proper_checkRoutesForTable h ht s.1 s.2)
  exact hfold _ _ (proper_checkRoutesForTable h (by simp) _ _)

theorem proper_routeMetrics (h : Host) : ∀ m ∈ routeMetrics h, Proper m := by
  have hname : isMetricName "network_routes_all_healthy" := by decide
  exact proper_addMetric (proper_routeTally h) ⟨hname, numeral_health _ _⟩

/-- `interfaces.sh` and `routes.sh` only write such metrics. -/
theorem proper_metrics {script : MetricScript} (hs : script ≠ .docker) (h : Host) :
    ∀ m ∈ script.metrics h, Proper m := by
  intro m hm
  cases script with
  | docker => exact absurd rfl hs
  | interfaces =>
    obtain ⟨interface, -, hm⟩ := List.mem_flatMap.1 hm
    exact proper_interfaceMetrics h interface m hm
  | routes => exact proper_routeMetrics h m hm

theorem numeral_containerStatusCode (status : String) :
    Json.Numeral (containerStatusCode status).toList := by
  have hdigits : ['5'] ≠ [] := by decide
  unfold containerStatusCode
  dsimp only
  split_ifs
  · exact numeral_bit true
  · exact numeral_bit false
  · exact Json.numeral_fraction hdigits (List.all_eq_true.1 rfl)
  · exact numeral_bit true
  · exact numeral_bit false
  · exact Json.numeral_toString (-1)

theorem readable_containerMetric {name : String} (status : String)
    (hname : ∀ c ∈ name.toList, c.isAlphanum ∨ c = '_' ∨ c = '.' ∨ c = '-') :
    Json.Readable (containerMetric name status) := by
  have hbefore : Word "docker_container_" := by decide
  have hafter : Word "_healthy" := by decide
  refine ⟨fun c hc => isPlain_of_isMetricChar ?_, numeral_containerStatusCode status⟩
  change c ∈ ("docker_container_" ++ containerName name ++ "_healthy").toList at hc
  simp only [containerName, String.toList_append, String.toList_ofList, List.mem_append,
    List.mem_map] at hc
  rcases hc with (hc | ⟨d, hd, rfl⟩) | hc
  · exact .inl (hbefore c hc)
  · split_ifs with hdash
    · exact .inl rfl
    · rcases hname d hd with h | rfl | rfl | rfl
      · exact .inl (by simp [isMetricChar, h])
      · exact .inl rfl
      · exact .inr rfl
      · exact absurd rfl hdash
  · exact .inl (hafter c hc)

theorem readable_metrics (script : MetricScript) (h : Host) :
    ∀ m ∈ script.metrics h, Json.Readable m := by
  intro m hm
  by_cases hs : script = .docker
  · subst hs
    simp only [MetricScript.metrics, dockerMetrics] at hm
    split_ifs at hm
    · rw [List.mem_singleton.1 hm]
      exact readable_containerMetric "" (by simp)
    · obtain ⟨c, -, rfl⟩ := List.mem_map.1 hm
      exact readable_containerMetric c.status c.name_ok
  · exact readable_of_proper (proper_metrics hs h m hm)

theorem metrics_ne_nil (script : MetricScript) (h : Host) : script.metrics h ≠ [] := by
  cases script with
  | docker =>
    simp only [MetricScript.metrics, dockerMetrics]
    split_ifs with hc
    · simp
    · simpa using hc
  | interfaces => simp [MetricScript.metrics, interfaceNames, interfaceMetrics]
  | routes => simp [MetricScript.metrics, routeMetrics, Tally.addMetric]

/-! ### Texts -/

theorem toList_metricLine (m : Metric) : (metricLine m).toList = Json.memberText m := by
  simp [metricLine, Json.memberText]

theorem flatten_metricPieces {ms : List Metric} (hne : ms ≠ []) :
    ((metricPieces ms).map String.toList).flatten = Json.membersText ['\n'] ms ++ ['\n'] := by
  induction ms with
  | nil => exact absurd rfl hne
  | cons m ms ih =>
    cases ms with
    | nil => simp [metricPieces, Json.membersText, toList_metricLine]
    | cons m' ms =>
      have hih := ih (by simp)
      simp only [metricPieces, List.map_cons, List.flatten_cons, Json.membersText] at hih ⊢
      rw [hih]
      simp [toList_metricLine]

theorem dockerLoop_eq (ms : List Metric) :
    dockerLoop ms = '{' :: ms.flatMap fun m => '\n' :: Json.memberText m ++ [',', ' '] := by
  have hfold (acc : List Char) :
      ms.foldl (fun metrics m => metrics ++ '\n' :: (metricLine m ++ ", ").toList) acc =
        acc ++ ms.flatMap fun m => '\n' :: Json.memberText m ++ [',', ' '] := by
    induction ms generalizing acc with
    | nil => simp
    | cons m ms ih =>
      rw [List.foldl_cons, ih]
      simp [toList_metricLine]
  exact hfold ['{']

theorem flatMap_members {ms : List Metric} (hne : ms ≠ []) :
    (ms.flatMap fun m => '\n' :: Json.memberText m ++ [',', ' ']) =
      '\n' :: Json.membersText [' ', '\n'] ms ++ [',', ' '] := by
  induction ms with
  | nil => exact absurd rfl hne
  | cons m ms ih =>
    cases ms with
    | nil => simp [Json.membersText]
    | cons m' ms =>
      rw [List.flatMap_cons, ih (by simp)]
      simp [Json.membersText]

/-- What a script has written when it is done is read as the dictionary of its metrics. -/
theorem loads_pieces (script : MetricScript) (h : Host) :
    Json.loads (script.pieces h).flatten = some (.object (Json.dictOf (script.metrics h))) := by
  have hne := metrics_ne_nil script h
  have hms := readable_metrics script h
  have hlines (hpieces : script.pieces h =
      ['{', '\n'] :: (metricPieces (script.metrics h)).map String.toList ++ [['}', '\n']]) :
      Json.loads (script.pieces h).flatten = some (.object (Json.dictOf (script.metrics h))) := by
    have htext : (script.pieces h).flatten = '{' :: ['\n'] ++
        (Json.membersText ['\n'] (script.metrics h) ++ ['\n'] ++ '}' :: ['\n']) := by
      rw [hpieces, List.flatten_append, List.flatten_cons, flatten_metricPieces hne]
      simp
    have hblank : ∀ c ∈ ['\n'], Json.isBlank c := List.all_eq_true.1 rfl
    rw [htext]
    exact Json.loads_object hblank hblank hblank hblank hne hms
  cases script with
  | docker =>
    have htext : (MetricScript.docker.pieces h).flatten = '{' :: ['\n'] ++
        (Json.membersText [' ', '\n'] (dockerMetrics h) ++ [] ++ '}' :: ['\n']) := by
      have hloop : (dockerLoop (dockerMetrics h)).dropLast.dropLast =
          '{' :: '\n' :: Json.membersText [' ', '\n'] (dockerMetrics h) := by
        have hdocker : dockerMetrics h ≠ [] := hne
        have hends (cs : List Char) : (cs ++ [',', ' ']).dropLast.dropLast = cs := by
          rw [← List.singleton_append, ← List.append_assoc, List.dropLast_concat]
          exact List.dropLast_concat
        rw [dockerLoop_eq, flatMap_members hdocker]
        exact hends ('{' :: '\n' :: Json.membersText [' ', '\n'] (dockerMetrics h))
      simp [MetricScript.pieces, dockerText, hloop]
    have hblank : ∀ c ∈ ['\n'], Json.isBlank c := List.all_eq_true.1 rfl
    rw [htext]
    exact Json.loads_object hblank (List.all_eq_true.1 rfl) (List.all_eq_true.1 rfl) hblank hne hms
  | interfaces => exact hlines rfl
  | routes => exact hlines rfl

end Yggdrasil.Exporter
