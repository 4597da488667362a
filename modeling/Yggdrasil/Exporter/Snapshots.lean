import Yggdrasil.Exporter.Collector

/-! The collector keeps running and publishes only what a finished snapshot says, as long as no
script writes its file while the collector reads it. Otherwise it may read a file that has just
been truncated, whose text is not JSON, and its loop ends. -/

namespace Yggdrasil.Exporter

open Python

/-- No script begins to write the file that is being read, and no file is opened that is being
written or that its script left unfinished. -/
def Apart (σ : System) : Action → Prop
  | .truncate script _ => ∀ buffer left, σ.collector ≠ .reading script buffer left
  | .openFile script => σ.writers script = .idle
  | _ => True

/-- The names that `docker.sh` makes of the containers are metric names for `Gauge`. -/
def WellNamed (client : Client) : Action → Prop
  | .truncate .docker h => ∀ c ∈ h.containers,
      client.acceptsName (containerMetric c.name c.status).1
  | _ => True

def Undisturbed (client : Client) (σ : System) (a : Action) : Prop :=
  Apart σ a ∧ WellNamed client a

variable {client : Client}

/-! ### Publishing -/

/-- The gauges are those of the listed metrics, and their values satisfy `P`. -/
structure Registry.Sound (P : String → Json → Prop) (r : Registry) : Prop where
  names : r.metricObjectList.map Gauge.name = r.metricList
  values : ∀ gauge ∈ r.metricObjectList, ∀ value, gauge.value = some value → P gauge.name value

variable {P : String → Json → Prop} {r : Registry}

theorem Registry.Sound.mono {Q : String → Json → Prop} (h : r.Sound P)
    (hPQ : ∀ name value, P name value → Q name value) : r.Sound Q :=
  ⟨h.names, fun gauge hg value hv => hPQ _ _ (h.values gauge hg value hv)⟩

/-- Setting the gauge of a metric to one of its values. -/
theorem Registry.Sound.set (h : r.Sound P) {index : ℕ} {metric : String} {value : Json}
    (hi : r.metricList[index]? = some metric) (hfloat : floatFailure client value = none)
    (hP : P metric value) : ∃ r', r.set client index value = (none, r') ∧ r'.Sound P := by
  rw [← h.names, List.getElem?_map, Option.map_eq_some_iff] at hi
  obtain ⟨gauge, hgauge, rfl⟩ := hi
  refine ⟨_, by simp only [Registry.set, hgauge, hfloat]; rfl, ?_, ?_⟩
  · have hset : (r.metricObjectList.set index { gauge with value := some value }).map Gauge.name =
        (r.metricObjectList.map Gauge.name).set index gauge.name := List.map_set
    rw [hset, h.names]
    apply List.ext_getElem?
    intro k
    rw [List.getElem?_set]
    split_ifs with hk hlt
    · rw [← hk, ← h.names, List.getElem?_map, hgauge]
      rfl
    · rw [← hk, List.getElem?_eq_none (Nat.le_of_not_lt hlt)]
    · rfl
  · intro g hg v hv
    rcases List.mem_or_eq_of_mem_set hg with hg | rfl
    · exact h.values g hg v hv
    · obtain rfl : value = v := Option.some.inj hv
      exact hP

theorem Registry.Sound.publish (h : r.Sound P) (path : String) {metric : String} {value : Json}
    (hname : client.acceptsName metric) (hfloat : floatFailure client value = none)
    (hP : P metric value) :
    ∃ r', r.publish client path metric value = (none, r') ∧ r'.Sound P := by
  unfold Registry.publish
  cases hindex : r.metricList.idxOf? metric with
  | some index =>
    obtain ⟨hlt, hget, -⟩ := List.idxOf?_eq_some_iff.1 hindex
    exact h.set (List.getElem?_eq_some_iff.2 ⟨hlt, hget⟩) hfloat hP
  | none =>
    let gauge : Gauge := ⟨metric, "Custom metric in file " ++ path, none⟩
    have hsound : Registry.Sound P ⟨r.metricList ++ [metric], r.metricObjectList ++ [gauge]⟩ := by
      refine ⟨by simp [h.names, gauge], fun g hg v hv => ?_⟩
      rcases List.mem_append.1 hg with hg | hg
      · exact h.values g hg v hv
      · rw [List.mem_singleton.1 hg] at hv
        cases hv
    have hlength : r.metricObjectList.length = r.metricList.length := by
      rw [← h.names, List.length_map]
    have hlast : (r.metricList ++ [metric])[(r.metricObjectList ++ [gauge]).length - 1]? =
        some metric := by
      simp [hlength]
    simp only [hname, if_true]
    exact hsound.set hlast hfloat hP

theorem Registry.Sound.publishAll (path : String) {items : List (String × Json)}
    (hitems : ∀ item ∈ items, client.acceptsName item.1 ∧ floatFailure client item.2 = none ∧
      P item.1 item.2) (h : r.Sound P) :
    ∃ r', r.publishAll client path items = (none, r') ∧ r'.Sound P := by
  induction items generalizing r with
  | nil => exact ⟨r, rfl, h⟩
  | cons item items ih =>
    obtain ⟨hname, hfloat, hP⟩ := hitems item List.mem_cons_self
    obtain ⟨r₁, hr₁, h₁⟩ := h.publish path hname hfloat hP
    obtain ⟨r₂, hr₂, h₂⟩ := ih (fun i hi => hitems i (List.mem_cons_of_mem _ hi)) h₁
    exact ⟨r₂, by rw [Registry.publishAll, hr₁]; exact hr₂, h₂⟩

theorem mem_dictOf {ms : List Metric} {item : String × Json} (h : item ∈ Json.dictOf ms) :
    ∃ m ∈ ms, item = (m.1, .number m.2) := by
  rcases Dict.mem_update h with h | h
  · cases h
  · obtain ⟨m, hm, rfl⟩ := List.mem_map.1 h
    exact ⟨m, hm, rfl⟩

def Accepted (client : Client) (script : MetricScript) (h : Host) : Prop :=
  ∀ m ∈ script.metrics h, client.acceptsName m.1

/-- A finished snapshot is published without an exception. -/
theorem parseMetrics_pieces {script : MetricScript} {h : Host} (path : String)
    (haccepted : Accepted client script h) (hP : ∀ m ∈ script.metrics h, P m.1 (.number m.2))
    (hr : r.Sound P) :
    ∃ r', parseMetrics client path (script.pieces h).flatten r = (none, r') ∧ r'.Sound P := by
  rw [parseMetrics, loads_pieces]
  refine hr.publishAll path fun item hitem => ?_
  obtain ⟨m, hm, rfl⟩ := mem_dictOf hitem
  exact ⟨haccepted m hm, rfl, hP m hm⟩

theorem accepted_of_wellNamed (hclient : ∀ name, isMetricName name → client.acceptsName name)
    {script : MetricScript} {h : Host} (hnamed : WellNamed client (.truncate script h)) :
    Accepted client script h := by
  intro m hm
  by_cases hs : script = .docker
  · subst hs
    simp only [MetricScript.metrics, dockerMetrics] at hm
    split_ifs at hm
    · rw [List.mem_singleton.1 hm]
      exact hclient _ (by decide)
    · obtain ⟨c, hc, rfl⟩ := List.mem_map.1 hm
      exact hnamed c hc
  · exact hclient m.1 (proper_metrics hs h m hm).1

/-! ### Undisturbed runs -/

/-- The files that the collector is reading or still has to read. -/
def Collector.files : Collector → List MetricScript
  | pending files => files
  | reading file _ left => file :: left
  | _ => []

structure Consistent (client : Client) (σ : System) : Prop where
  finished : ∀ script, σ.writers script = .idle → ∀ text, σ.files script = some text →
    ∃ h ∈ σ.completed script, text = (script.pieces h).flatten
  written : ∀ script h left, σ.writers script = .writing h left → Accepted client script h ∧
    ∃ done, script.pieces h = done ++ left ∧ σ.files script = some done.flatten
  accepted : ∀ script, ∀ h ∈ σ.completed script, Accepted client script h
  present : ∀ file ∈ σ.collector.files, (σ.files file).isSome
  read : ∀ file buffer left, σ.collector = .reading file buffer left →
    σ.writers file = .idle ∧ ∀ text, σ.files file = some text → buffer <+: text
  alive : ∀ x, σ.collector ≠ .dead x
  registry : σ.registry.Sound (Snapshotted σ.completed)

theorem consistent_start : Consistent client System.start where
  finished := fun _ _ _ h => nomatch h
  written := fun _ _ _ hw => nomatch hw
  accepted := fun _ _ h => nomatch h
  present := fun _ h => nomatch h
  read := fun _ _ _ h => nomatch h
  alive := fun _ h => nomatch h
  registry := ⟨rfl, fun _ h => nomatch h⟩

section Steps

variable {σ : System} {script : MetricScript} {h : Host}

/-- A file stays in the directory. -/
theorem present_update {files : MetricScript → Option (List Char)} {l : List MetricScript}
    (hl : ∀ file ∈ l, (files file).isSome) (text : List Char) :
    ∀ file ∈ l, (Function.update files script (some text) file).isSome := by
  intro file hfile
  by_cases hs : file = script
  · rw [hs, Function.update_self]
    rfl
  · rw [Function.update_of_ne hs]
    exact hl file hfile

/-- The script has written some of its pieces to a file that nobody reads. -/
theorem Consistent.write (hσ : Consistent client σ) (hh : Accepted client script h)
    (done : List (List Char)) {left : List (List Char)} (hpieces : script.pieces h = done ++ left)
    (hfree : ∀ buffer rest, σ.collector ≠ .reading script buffer rest) :
    Consistent client { σ with
      files := Function.update σ.files script (some done.flatten)
      writers := Function.update σ.writers script (.writing h left) } where
  finished := by
    dsimp only
    intro s hidle text htext
    by_cases hs : s = script
    · subst hs
      rw [Function.update_self] at hidle
      cases hidle
    · rw [Function.update_of_ne hs] at hidle htext
      exact hσ.finished s hidle text htext
  written := by
    dsimp only
    intro s h' left' hw
    by_cases hs : s = script
    · subst hs
      rw [Function.update_self] at hw
      cases hw
      exact ⟨hh, done, hpieces, Function.update_self ..⟩
    · rw [Function.update_of_ne hs] at hw ⊢
      exact hσ.written s h' left' hw
  accepted := hσ.accepted
  present := present_update hσ.present _
  read := by
    dsimp only
    intro file buffer rest hc
    have hs : file ≠ script := by
      rintro rfl
      exact hfree buffer rest hc
    rw [Function.update_of_ne hs, Function.update_of_ne hs]
    exact hσ.read file buffer rest hc
  alive := hσ.alive
  registry := hσ.registry

/-- The file that is being read is not one that is being written. -/
theorem Consistent.not_reading (hσ : Consistent client σ) {left : List (List Char)}
    (hw : σ.writers script = .writing h left) (buffer : List Char) (rest : List MetricScript) :
    σ.collector ≠ .reading script buffer rest := by
  intro hc
  rw [(hσ.read script buffer rest hc).1] at hw
  cases hw

theorem Consistent.append (hσ : Consistent client σ) {piece text : List Char}
    {left : List (List Char)} (hw : σ.writers script = .writing h (piece :: left))
    (hf : σ.files script = some text) :
    Consistent client { σ with
      files := Function.update σ.files script (some (text ++ piece))
      writers := Function.update σ.writers script (.writing h left) } := by
  obtain ⟨haccepted, done, hpieces, hfile⟩ := hσ.written script h _ hw
  obtain rfl : text = done.flatten := Option.some.inj (hf.symm.trans hfile)
  have hsplit : script.pieces h = (done ++ [piece]) ++ left := by simpa using hpieces
  simpa using hσ.write haccepted _ hsplit (hσ.not_reading hw)

/-- What is read is not changed by the script that stops. -/
theorem Consistent.read_update (hσ : Consistent client σ) {left : List (List Char)}
    (hw : σ.writers script = .writing h left) (w : Writer) :
    ∀ file buffer rest, σ.collector = .reading file buffer rest →
      Function.update σ.writers script w file = .idle ∧
        ∀ text, σ.files file = some text → buffer <+: text := by
  intro file buffer rest hc
  have hs : file ≠ script := by
    rintro rfl
    exact hσ.not_reading hw _ _ hc
  rw [Function.update_of_ne hs]
  exact hσ.read file buffer rest hc

/-- Another script than the one that stops. -/
theorem writing_of_update {s : MetricScript} {w : Writer} {h' : Host} {left : List (List Char)}
    (hw : ∀ h left, w ≠ .writing h left)
    (h : Function.update σ.writers script w s = .writing h' left) : σ.writers s = .writing h' left := by
  have hs : s ≠ script := by
    rintro rfl
    rw [Function.update_self] at h
    exact hw _ _ h
  rwa [Function.update_of_ne hs] at h

theorem Snapshotted.mono {completed completed' : MetricScript → List Host} {name : String}
    {value : Json} (hsnap : Snapshotted completed name value)
    (hle : ∀ s, ∀ h ∈ completed s, h ∈ completed' s) : Snapshotted completed' name value := by
  obtain ⟨s, h, hh, hmem⟩ := hsnap
  exact ⟨s, h, hle s h hh, hmem⟩

theorem Consistent.finish (hσ : Consistent client σ) (hw : σ.writers script = .writing h []) :
    Consistent client { σ with
      writers := Function.update σ.writers script .idle
      completed := Function.update σ.completed script (h :: σ.completed script) } := by
  obtain ⟨haccepted, done, hpieces, hfile⟩ := hσ.written script h [] hw
  rw [List.append_nil] at hpieces
  have hle : ∀ s, ∀ h' ∈ σ.completed s,
      h' ∈ Function.update σ.completed script (h :: σ.completed script) s := by
    intro s h' hh'
    by_cases hs : s = script
    · subst hs
      rw [Function.update_self]
      exact List.mem_cons_of_mem _ hh'
    · rwa [Function.update_of_ne hs]
  refine ⟨?_, ?_, ?_, hσ.present, ?_, hσ.alive, hσ.registry.mono fun _ _ hsnap => hsnap.mono hle⟩
  · dsimp only
    intro s hidle text htext
    by_cases hs : s = script
    · subst hs
      obtain rfl : text = done.flatten := Option.some.inj (htext.symm.trans hfile)
      exact ⟨h, by simp, by rw [hpieces]⟩
    · rw [Function.update_of_ne hs] at hidle
      obtain ⟨h', hh', htext'⟩ := hσ.finished s hidle text htext
      exact ⟨h', hle s h' hh', htext'⟩
  · dsimp only
    intro s h' left hw'
    exact hσ.written s h' left (writing_of_update (by simp) hw')
  · dsimp only
    intro s h' hh'
    by_cases hs : s = script
    · subst hs
      rw [Function.update_self] at hh'
      rcases List.mem_cons.1 hh' with rfl | hh'
      · exact haccepted
      · exact hσ.accepted s h' hh'
    · rw [Function.update_of_ne hs] at hh'
      exact hσ.accepted s h' hh'
  · exact hσ.read_update hw _

theorem Consistent.cutOff (hσ : Consistent client σ) {left : List (List Char)}
    (hw : σ.writers script = .writing h left) :
    Consistent client { σ with writers := Function.update σ.writers script .cutOff } := by
  refine ⟨?_, ?_, hσ.accepted, hσ.present, ?_, hσ.alive, hσ.registry⟩
  · dsimp only
    intro s hidle
    have hs : s ≠ script := by
      rintro rfl
      rw [Function.update_self] at hidle
      cases hidle
    rw [Function.update_of_ne hs] at hidle
    exact hσ.finished s hidle
  · dsimp only
    intro s h' left' hw'
    exact hσ.written s h' left' (writing_of_update (by simp) hw')
  · exact hσ.read_update hw _

/-- The collector moves on between two files. -/
theorem Consistent.moved (hσ : Consistent client σ) {c : Collector}
    (hpresent : ∀ file ∈ c.files, (σ.files file).isSome)
    (hread : ∀ file buffer left, c = .reading file buffer left → σ.writers file = .idle ∧
      ∀ text, σ.files file = some text → buffer <+: text)
    (halive : ∀ x, c ≠ .dead x) : Consistent client { σ with collector := c } :=
  ⟨hσ.finished, hσ.written, hσ.accepted, hpresent, hread, halive, hσ.registry⟩

/-- What was read to the end is a finished snapshot. -/
theorem Consistent.parsed (hσ : Consistent client σ) {file : MetricScript}
    {buffer text : List Char} {left : List MetricScript}
    (hc : σ.collector = .reading file buffer left) (hf : σ.files file = some text)
    (hend : text.length ≤ buffer.length) : Consistent client (σ.parsed client file buffer left) := by
  obtain ⟨hidle, hread⟩ := hσ.read file buffer left hc
  obtain rfl : buffer = text := (hread text hf).eq_of_length_le hend
  obtain ⟨h, hh, rfl⟩ := hσ.finished file hidle buffer hf
  obtain ⟨r, hparse, hr⟩ := parseMetrics_pieces (P := Snapshotted σ.completed) file.path
    (hσ.accepted file h hh) (fun m hm => ⟨file, h, hh, m.2, rfl, hm⟩) hσ.registry
  have hpresent := hσ.present
  rw [hc] at hpresent
  unfold System.parsed
  rw [hparse]
  exact ⟨hσ.finished, hσ.written, hσ.accepted,
    fun f hfile => hpresent f (List.mem_cons_of_mem _ hfile), fun _ _ _ h => (nomatch h),
    fun _ h => (nomatch h), hr⟩

theorem Consistent.step (hclient : ∀ name, isMetricName name → client.acceptsName name)
    {τ : System} {a : Action} (hσ : Consistent client σ) (ha : Undisturbed client σ a)
    (hs : Step client σ a τ) : Consistent client τ := by
  cases hs with
  | truncate hw => exact hσ.write (accepted_of_wellNamed hclient ha.2) [] rfl ha.1
  | append hw hf => exact hσ.append hw hf
  | finish hw => exact hσ.finish hw
  | cutOff hw => exact hσ.cutOff hw
  | listFiles hc hf =>
    exact hσ.moved (fun file hfile => (hf file).1 hfile) (fun _ _ _ h => nomatch h)
      fun _ h => nomatch h
  | sleep hc =>
    exact hσ.moved (fun _ h => nomatch h) (fun _ _ _ h => nomatch h) fun _ h => nomatch h
  | @openFile file left hc =>
    have hpresent := hσ.present
    rw [hc] at hpresent
    rw [if_pos (hpresent file List.mem_cons_self)]
    refine hσ.moved hpresent ?_ fun _ h => nomatch h
    rintro f buffer rest ⟨⟩
    exact ⟨ha.1, fun text _ => List.nil_prefix⟩
  | @readChunk file buffer chunk text left hc hf hne hchunk =>
    have hpresent := hσ.present
    rw [hc] at hpresent
    obtain ⟨hidle, hread⟩ := hσ.read file buffer left hc
    refine hσ.moved hpresent ?_ fun _ h => nomatch h
    rintro f _ rest ⟨⟩
    refine ⟨hidle, fun t ht => ?_⟩
    obtain rfl : text = t := Option.some.inj (hf.symm.trans ht)
    obtain ⟨tail, rfl⟩ := hread text hf
    rw [List.drop_left] at hchunk
    exact (List.prefix_append_right_inj buffer).2 hchunk
  | readEnd hc hf hend => exact hσ.parsed hc hf hend

end Steps

/-- In every undisturbed run the collector keeps running, and every value that it publishes is
one of a finished snapshot. -/
theorem collector_robust (hclient : ∀ name, isMetricName name → client.acceptsName name)
    {σ : System} (h : Reach client (Undisturbed client) σ) : Robust σ := by
  have hσ : Consistent client σ := by
    induction h with
    | refl => exact consistent_start
    | tail _ hstep ih =>
      obtain ⟨a, ha, hs⟩ := hstep
      exact ih.step hclient ha hs
  exact ⟨hσ.alive, hσ.registry.values⟩

section Example

/-- A client that takes no other names. -/
private def strictClient : Client := ⟨isMetricName, fun _ => false⟩

private def hostOf (containers : List Container) : Host :=
  ⟨containers, fun _ => none, none, [], fun _ _ => false⟩

/-- The script has truncated its file. -/
private def truncated (script : MetricScript) (h : Host) : System :=
  { System.start with
    files := Function.update (fun _ => none) script (some [])
    writers := Function.update (fun _ => .idle) script (.writing h (script.pieces h)) }

section Docker

variable (h : Host)

private def appended : System :=
  { truncated .docker h with
    files := Function.update (truncated .docker h).files .docker (some (dockerText (dockerMetrics h)))
    writers := Function.update (truncated .docker h).writers .docker (.writing h []) }

private def finished : System :=
  { appended h with
    writers := Function.update (appended h).writers .docker .idle
    completed := Function.update (appended h).completed .docker [h] }

private def readWhole : System :=
  { finished h with collector := .reading .docker (dockerText (dockerMetrics h)) [] }

/-- The state after one snapshot was written and read. -/
private def observed : System :=
  (readWhole h).parsed strictClient .docker (dockerText (dockerMetrics h)) []

end Docker

private theorem mem_single {script : MetricScript} {files : MetricScript → Option (List Char)}
    (hnone : ∀ s, s ≠ script → files s = none) (hsome : (files script).isSome) :
    ∀ file, file ∈ [script] ↔ (files file).isSome := by
  intro file
  rw [List.mem_singleton]
  by_cases hs : file = script
  · simp [hs, hsome]
  · simp [hs, hnone file hs]

private theorem reach_observed {allowed : System → Action → Prop} (h : Host)
    (hallowed : ∀ σ a, Apart σ a → (∀ script h', a = .truncate script h' → h' = h) → allowed σ a) :
    Reach strictClient allowed (observed h) := by
  have hnone (s : MetricScript) (hs : s ≠ .docker) : (finished h).files s = none := by
    cases s <;> first | exact absurd rfl hs | rfl
  have htruncate : Step strictClient System.start (.truncate .docker h) (truncated .docker h) :=
    .truncate (by simp [System.start])
  have happend : Step strictClient (truncated .docker h) (.append .docker) (appended h) :=
    @Step.append _ _ .docker h (dockerText (dockerMetrics h)) [] [] rfl rfl
  have hfinish : Step strictClient (appended h) (.finish .docker) (finished h) := .finish rfl
  have hlist : Step strictClient (finished h) .listFiles
      { finished h with collector := .pending [.docker] } :=
    .listFiles rfl (mem_single hnone rfl) (by simp)
  have hopen : Step strictClient { finished h with collector := .pending [.docker] }
      (.openFile .docker) { finished h with collector := .reading .docker [] [] } := .openFile rfl
  have hread : Step strictClient { finished h with collector := .reading .docker [] [] }
      .readChunk (readWhole h) :=
    @Step.readChunk _ _ .docker [] (dockerText (dockerMetrics h)) (dockerText (dockerMetrics h)) []
      rfl rfl (by simp [dockerText]) List.prefix_rfl
  have hend : Step strictClient (readWhole h) .readEnd (observed h) :=
    @Step.readEnd _ _ .docker (dockerText (dockerMetrics h)) (dockerText (dockerMetrics h)) [] rfl
      rfl le_rfl
  have hfirst : allowed System.start (.truncate .docker h) := by
    refine hallowed _ _ (by simp [Apart, System.start]) ?_
    rintro _ _ ⟨⟩
    rfl
  have hwritten : Reach strictClient allowed (finished h) :=
    ((Reach.start.step htruncate hfirst).step happend (hallowed _ _ trivial (by simp))).step hfinish
      (hallowed _ _ trivial (by simp))
  have hopened := (hwritten.step hlist (hallowed _ _ trivial (by simp))).step hopen
    (hallowed _ _ rfl (by simp))
  exact (hopened.step hread (hallowed _ _ trivial (by simp))).step hend (hallowed _ _ trivial (by simp))

/-- The metric of a host without containers is published. -/
theorem observed_robust : Robust (observed (hostOf [])) := by
  refine @collector_robust strictClient (fun _ h => h) _ (reach_observed _ fun σ a ha hh => ⟨ha, ?_⟩)
  cases a with
  | truncate script h =>
    cases script with
    | docker =>
      obtain rfl := hh .docker h rfl
      exact fun c hc => nomatch hc
    | interfaces => trivial
    | routes => trivial
  | _ => trivial

private def dotted : Container := ⟨"db.1", "Up 2 hours", by simp⟩

/-- The file of a script is read right after it was truncated; and the name of a container has a
dot, which Docker takes and an older client does not. -/
theorem collector_not_robust :
    (¬∀ σ, Reach strictClient (fun _ _ => True) σ → Robust σ) ∧
      ¬∀ σ, Reach strictClient Apart σ → Robust σ := by
  constructor
  · intro hall
    have hnone (s : MetricScript) (hs : s ≠ .routes) :
        (truncated .routes (hostOf [])).files s = none := by
      cases s <;> first | exact absurd rfl hs | rfl
    have htruncate : Step strictClient System.start (.truncate .routes (hostOf []))
        (truncated .routes (hostOf [])) := .truncate fun _ _ h => nomatch h
    have hlist : Step strictClient (truncated .routes (hostOf [])) .listFiles
        { truncated .routes (hostOf []) with collector := .pending [.routes] } :=
      .listFiles rfl (mem_single hnone rfl) (by simp)
    have hopen : Step strictClient
        { truncated .routes (hostOf []) with collector := .pending [.routes] } (.openFile .routes)
        { truncated .routes (hostOf []) with collector := .reading .routes [] [] } := .openFile rfl
    have hend : Step strictClient
        { truncated .routes (hostOf []) with collector := .reading .routes [] [] } .readEnd
        { truncated .routes (hostOf []) with collector := .dead .json } :=
      @Step.readEnd _ _ .routes [] [] [] rfl rfl le_rfl
    have hopened : Reach strictClient (fun _ _ => True)
        { truncated .routes (hostOf []) with collector := .reading .routes [] [] } :=
      ((Reach.start.step htruncate trivial).step hlist trivial).step hopen trivial
    exact (hall _ (hopened.step hend trivial)).1 .json rfl
  · intro hall
    have hdead : (observed (hostOf [dotted])).collector = .dead .value := by
      have hloads := loads_pieces .docker (hostOf [dotted])
      have htext : (MetricScript.docker.pieces (hostOf [dotted])).flatten =
          dockerText (dockerMetrics (hostOf [dotted])) := List.append_nil _
      rw [htext] at hloads
      rw [observed, System.parsed, parseMetrics, hloads]
      rfl
    exact (hall _ (reach_observed _ fun σ a ha _ => ha)).1 .value hdead

end Example

end Yggdrasil.Exporter
