import Yggdrasil.Library.Splice
import Yggdrasil.Python.Text

/-! The extra routes of a device: the services that install them, and the monitor that reports
which of them are there. Both look for the text of a route in the printed table, so that another
route whose line has this text in it passes for it. -/

namespace Yggdrasil.Network

abbrev Text := List Char

/-! ### The tools -/

/-- A pattern of `grep` without special characters but the dot, which any character matches. -/
def startsMatch : Text → Text → Bool
  | [], _ => true
  | _ :: _, [] => false
  | c :: p, d :: l => (c = '.' || c = d) && startsMatch p l

def grep (pattern line : Text) : Bool := line.tails.any (startsMatch pattern)

/-- `grep -F`. -/
def grepFixed (pattern line : Text) : Bool := line.tails.any pattern.isPrefixOf

/-- The routes of a host as `ip route` takes and prints them. -/
structure IpRoute (Route : Type) where
  /-- The route that the arguments of `ip route add` describe. -/
  denotes : Text → Route
  /-- The line of a route in `ip route show`. -/
  line : Route → Text
  /-- `ip route add`, which adds its route if it succeeds. -/
  add : Text → List Route → Option (List Route)
  mem_add : ∀ {d t t'}, add d t = some t' → ∀ r, r ∈ t' ↔ r ∈ t ∨ r = denotes d

/-- The characters of addresses, prefixes and the names of devices. -/
def isPlain (c : Char) : Bool :=
  c.isAlphanum || [' ', '.', ':', '/', '-', '_', '@', '+', ','].contains c

def addWord : Text := "ip route add ".toList

/-- The text of a route as it stands in the configuration of the devices. -/
structure RouteText where
  text : Text
  nonempty : text ≠ []
  plain : ∀ c ∈ text, isPlain c = true
  noOption : text.head? ≠ some '-'
  noCommand : ¬addWord <:+: text
  noTable : ¬" table".toList <:+: text

/-- The name of a table. -/
structure TableName where
  text : Text
  plain : ∀ c ∈ text, isPlain c = true
  noBlank : ' ' ∉ text

/-! ### The services -/

section Services

variable {Route : Type} (ip : IpRoute Route)

/-- `ip route show table T | grep -q "R" || ip route add R table T`. -/
def execStart (t : List Route) (route : Text) : Option (List Route) :=
  if t.any fun r => grep route (ip.line r) then some t else ip.add route t

/-- A start of the service, all of whose commands succeed. -/
def start (routes : List RouteText) (t : List Route) : Option (List Route) :=
  routes.foldlM (fun t route => execStart ip t route.text) t

/-- After every command the routes desired so far are there. -/
def Installed (routes : List RouteText) (t₀ : List Route) : Prop :=
  ∀ pre, pre <+: routes → ∀ t, start ip pre t₀ = some t → ∀ d ∈ pre, ip.denotes d.text ∈ t

/-- The text of a desired route that is neither there nor desired before is in no line of the
routes that are. -/
def Unmasked (routes : List RouteText) (t₀ : List Route) : Prop :=
  ∀ pre d post, routes = pre ++ d :: post → ip.denotes d.text ∉ t₀ →
    (∀ d' ∈ pre, ip.denotes d'.text ≠ ip.denotes d.text) →
    ∀ r, r ∈ t₀ ∨ (∃ d' ∈ pre, r = ip.denotes d'.text) → grep d.text (ip.line r) = false

variable {ip} {routes : List RouteText} {t t' : List Route}

theorem mem_execStart {route : Text} (h : execStart ip t route = some t') (r : Route) :
    r ∈ t' ↔ r ∈ t ∨ ((t.any fun r => grep route (ip.line r)) = false ∧ r = ip.denotes route) := by
  unfold execStart at h
  split_ifs at h with hany
  · rw [← Option.some.inj h, hany]
    simp
  · rw [ip.mem_add h, Bool.eq_false_iff.2 hany]
    simp

theorem start_append {as bs : List RouteText} :
    start ip (as ++ bs) t = (start ip as t).bind (start ip bs) := List.foldlM_append

theorem start_snoc {as : List RouteText} {d : RouteText} :
    start ip (as ++ [d]) t = (start ip as t).bind fun t => execStart ip t d.text := by
  rw [start_append]
  exact congrArg _ (funext fun t => List.foldlM_cons.trans (bind_pure _))

/-- A start takes no route away and adds desired ones only. -/
theorem mem_start (h : start ip routes t = some t') :
    (∀ r ∈ t, r ∈ t') ∧ ∀ r ∈ t', r ∈ t ∨ ∃ d ∈ routes, r = ip.denotes d.text := by
  induction routes using List.reverseRecOn generalizing t' with
  | nil =>
    obtain rfl : t = t' := Option.some.inj h
    exact ⟨fun _ => id, fun _ => .inl⟩
  | append_singleton routes d ih =>
    rw [start_snoc] at h
    obtain ⟨s, hs, hd⟩ := Option.bind_eq_some_iff.1 h
    obtain ⟨hkeep, hnew⟩ := ih hs
    refine ⟨fun r hr => (mem_execStart hd r).2 (.inl (hkeep r hr)), fun r hr => ?_⟩
    rcases (mem_execStart hd r).1 hr with hr | ⟨-, rfl⟩
    · rcases hnew r hr with hr | ⟨e, he, rfl⟩
      · exact .inl hr
      · exact .inr ⟨e, List.mem_append_left _ he, rfl⟩
    · exact .inr ⟨d, by simp, rfl⟩

theorem Installed.of_unmasked (h : Unmasked ip routes t) : Installed ip routes t := by
  intro pre
  induction pre using List.reverseRecOn with
  | nil => exact fun _ _ _ _ hd => absurd hd List.not_mem_nil
  | append_singleton pre d ih =>
    rintro ⟨post, hpost⟩ s' hs' e he
    rw [start_snoc] at hs'
    obtain ⟨s, hs, hd⟩ := Option.bind_eq_some_iff.1 hs'
    have hpre := ih ⟨d :: post, by rw [← hpost]; simp⟩ s hs
    rcases List.mem_append.1 he with he | he
    · exact (mem_execStart hd _).2 (.inl (hpre e he))
    · obtain rfl : e = d := by simpa using he
      by_contra hnot
      obtain ⟨hs₀, hany⟩ := not_or.1 (mt (mem_execStart hd (ip.denotes e.text)).2 hnot)
      -- The command was skipped, so that a line of the table has the text of the route.
      have hskip : (s.any fun r => grep e.text (ip.line r)) = true := by
        by_contra hne
        exact hany ⟨Bool.eq_false_iff.2 hne, rfl⟩
      obtain ⟨r, hr, hgrep⟩ := List.any_eq_true.1 hskip
      have hclear := h pre e post (by rw [← hpost]; simp)
        (fun hc => hs₀ ((mem_start hs).1 _ hc)) (fun d' hd' heq => hs₀ (heq ▸ hpre d' hd'))
        r ((mem_start hs).2 r hr)
      rw [hclear] at hgrep
      cases hgrep

theorem Unmasked.of_installed (hstart : start ip routes t = some t') (h : Installed ip routes t) :
    Unmasked ip routes t := by
  intro pre d post hroutes hnew hfirst r hr
  by_contra hgrep
  rw [hroutes, start_append] at hstart
  obtain ⟨s, hs, hrest⟩ := Option.bind_eq_some_iff.1 hstart
  rw [← List.singleton_append, start_append] at hrest
  obtain ⟨u, hu, -⟩ := Option.bind_eq_some_iff.1 hrest
  have hpre := h pre ⟨d :: post, hroutes.symm⟩ s hs
  have hsingle : start ip ([] ++ [d]) s = (start ip [] s).bind fun t => execStart ip t d.text :=
    start_snoc
  have hd : execStart ip s d.text = some u := hsingle.symm.trans hu
  have hmem : ip.denotes d.text ∈ u := h (pre ++ [d]) ⟨post, by rw [hroutes]; simp⟩ u
    (by rw [start_snoc, hs]; exact hd) d (by simp)
  have hrs : r ∈ s := by
    rcases hr with hr | ⟨d', hd', rfl⟩
    · exact (mem_start hs).1 r hr
    · exact hpre d' hd'
  have hany : (s.any fun r => grep d.text (ip.line r)) = true :=
    List.any_eq_true.2 ⟨r, hrs, (Bool.not_eq_false _).mp hgrep⟩
  rcases (mem_execStart hd _).1 hmem with hs' | ⟨hfalse, -⟩
  · rcases (mem_start hs).2 _ hs' with hc | ⟨d', hd', heq⟩
    · exact hnew hc
    · exact hfirst d' hd' heq.symm
  · rw [hany] at hfalse
    cases hfalse

/-- Where no route is desired twice, what is there at the end was there in time. -/
theorem Installed.of_final (hstart : start ip routes t = some t')
    (hdistinct : routes.Pairwise fun d d' => ip.denotes d.text ≠ ip.denotes d'.text)
    (h : ∀ d ∈ routes, ip.denotes d.text ∈ t') : Installed ip routes t := by
  rintro pre ⟨post, rfl⟩ s hs d hd
  rw [start_append, hs, Option.bind_some] at hstart
  rcases (mem_start hstart).2 _ (h d (List.mem_append_left _ hd)) with hr | ⟨d', hd', heq⟩
  · exact hr
  · exact absurd heq ((List.pairwise_append.1 hdistinct).2.2 d hd d' hd')

end Services

/-- The part of a command that looks for the route. -/
def grepCommand (table : TableName) (route : RouteText) : Text :=
  "ExecStart=/bin/bash -c ".toList ++ '"' :: ("ip route show table ".toList ++
    (table.text ++ [' ']) ++ '|' :: (" grep -q ".toList ++ '\\' :: ('"' :: (route.text ++ '\\' ::
      ('"' :: ([' '] ++ '|' :: ('|' :: [' '])))))))

def tableWord (table : TableName) : Text := " table ".toList ++ table.text

/-- A command of the unit file. -/
def execLine (table : TableName) (route : RouteText) : Text :=
  grepCommand table route ++ (addWord ++ (route.text ++ (tableWord table ++ ['"'])))

/-- The lines of a unit file beside its commands for routes. -/
structure UnitLines where
  before : List Text
  after : List Text
  noCommand : ∀ line ∈ before ++ after, ¬addWord <:+: line

def unitFile (lines : UnitLines) (table : TableName) (routes : List RouteText) : List Text :=
  lines.before ++ routes.map (execLine table) ++ lines.after

/-- The unit for the main table, on a device with a pair of virtual interfaces or without, and
with routes over `br0` or without. -/
def mainUnit (veth br0 : Bool) : UnitLines where
  before := (["[Unit]", "Description=Network routes for table main",
      "Wants=network-online.target"] ++
    (if veth then ["Requires=network_veth_device.service",
      "After=systemd-networkd.service network-online.target network_veth_device.service",
      "PartOf=systemd-networkd.service network_veth_device.service"]
    else ["After=systemd-networkd.service network-online.target",
      "PartOf=systemd-networkd.service"]) ++
    (if br0 then ["Requires=sys-subsystem-net-devices-br0.device",
      "After=sys-subsystem-net-devices-br0.device"] else []) ++
    ["", "[Service]"]).map String.toList
  after := ["Type=oneshot", "RemainAfterExit=yes", "Restart=on-failure", "RestartSec=5s", "",
    "[Install]", "WantedBy=multi-user.target"].map String.toList
  noCommand := by
    cases veth <;> cases br0 <;> decide +kernel

/-! ### The monitor -/

/-- The text around the first occurrence of a word. -/
def cut (w : Text) : Text → Option (Text × Text)
  | [] => none
  | c :: l =>
    if w.isPrefixOf (c :: l) then some ([], (c :: l).drop w.length)
    else (cut w l).map fun p => (c :: p.1, p.2)

/-- `extract_expected_routes`. -/
def extractExpectedRoutes (table : TableName) (file : List Text) : List Text :=
  file.filterMap fun line => (cut addWord line).bind fun p =>
    (cut (tableWord table) p.2).map Prod.fst

/-- Put one `_` in the place of every run of other characters than letters and digits. -/
def underscores : Text → Text
  | [] => []
  | [c] => if c.isLower || c.isDigit then [c] else ['_']
  | c :: d :: l =>
    if c.isLower || c.isDigit then c :: underscores (d :: l)
    else if d.isLower || d.isDigit then '_' :: underscores (d :: l)
    else underscores (d :: l)

def sanitizeMetricName (value : Text) : Text :=
  Python.stripList (· = '_') (underscores (value.map Char.toLower))

abbrev Metric := Text × ℤ

def presentName (table : TableName) (route : Text) : Text :=
  "network_route_".toList ++ sanitizeMetricName table.text ++ "_".toList ++
    sanitizeMetricName route ++ "_present".toList

def tableName (table : TableName) (suffix : String) : Text :=
  "network_routes_".toList ++ sanitizeMetricName table.text ++ "_".toList ++ suffix.toList

def health (expected present : ℕ) : ℤ :=
  if expected = 0 then -1 else if expected = present then 1 else 0

/-- The metrics of a table, the number of its expected routes and that of the present ones. -/
def checkRoutesForTable (table : TableName) (file : Option (List Text)) (shown : List Text) :
    List Metric × ℕ × ℕ :=
  match file with
  | none => ([(tableName table "configured", 0), (tableName table "healthy", -1),
      (tableName table "expected_routes", 0), (tableName table "present_routes", 0)], 0, 0)
  | some lines =>
    let expected := (extractExpectedRoutes table lines).filter fun route => !route.isEmpty
    let present := expected.filter fun route => shown.any (grepFixed route)
    (expected.map (fun route =>
        (presentName table route, if shown.any (grepFixed route) then 1 else 0)) ++
      [(tableName table "configured", 1),
        (tableName table "expected_routes", (expected.length : ℤ)),
        (tableName table "present_routes", (present.length : ℤ)),
        (tableName table "healthy", health expected.length present.length)],
      expected.length, present.length)

/-- The unit that should fill a table. -/
structure RouteUnit where
  lines : UnitLines
  routes : List RouteText

/-- A table that is watched: its name, its unit if there is one, and what is in it. -/
structure Watched (Route : Type) where
  table : TableName
  unit : Option RouteUnit
  present : List Route

section Monitor

variable {Route : Type} (ip : IpRoute Route)

def Watched.check (w : Watched Route) : List Metric × ℕ × ℕ :=
  checkRoutesForTable w.table (w.unit.map fun u => unitFile u.lines w.table u.routes)
    (w.present.map ip.line)

/-- The lines of the report. -/
def monitor (tables : List (Watched Route)) : List Metric :=
  (tables.flatMap fun w => (w.check ip).1) ++
    [("network_routes_all_healthy".toList, health ((tables.map fun w => (w.check ip).2.1).sum)
      ((tables.map fun w => (w.check ip).2.2).sum))]

end Monitor

/-! ### What the monitor reads -/

section Extraction

open Splice

variable {w l : Text}

theorem cut_eq_none (h : ¬w <:+: l) : cut w l = none := by
  induction l with
  | nil => rfl
  | cons c l ih =>
    have hpre : ¬w <+: c :: l := fun hc => h hc.isInfix
    have hrest : ¬w <:+: l := fun hc => h (List.infix_cons hc)
    rw [cut, if_neg (by rwa [List.isPrefixOf_iff_prefix]), ih hrest]
    rfl

theorem cut_at (hw : w ≠ []) {m : Text} :
    ∀ {l : Text}, Seam w l (w ++ m) → ¬w <:+: l → cut w (l ++ (w ++ m)) = some (l, m)
  | [], _, _ => by
    obtain ⟨c, v, rfl⟩ := List.exists_cons_of_ne_nil hw
    rw [List.nil_append, List.cons_append, cut, ← List.cons_append,
      if_pos (List.isPrefixOf_iff_prefix.2 (List.prefix_append _ m)), List.drop_left]
  | a :: l, hseam, hnot => by
    have hpre : ¬w <+: a :: (l ++ (w ++ m)) := fun hc =>
      hnot (hseam.prefix_left (List.cons_ne_nil a l) hc).isInfix
    rw [List.cons_append, cut, if_neg (by rwa [List.isPrefixOf_iff_prefix]),
      cut_at hw (hseam.of_suffix (List.suffix_cons a l)) fun hc => hnot (List.infix_cons hc)]
    rfl

/-! A command has the word for an addition once, before its route, and the word for its table
once, after it. -/

theorem not_in_blanks {table : TableName} : ¬addWord <:+: table.text ++ [' '] := by
  intro h
  have hcount := h.sublist.count_le ' '
  rw [List.count_append, List.count_eq_zero_of_not_mem table.noBlank] at hcount
  exact absurd hcount (by decide +kernel)

theorem not_in_grepCommand (table : TableName) (route : RouteText) :
    ¬addWord <:+: grepCommand table route := by
  have hother : '"' ∉ addWord ∧ '|' ∉ addWord ∧ '\\' ∉ addWord := by decide +kernel
  have hshow : endsClear addWord "ip route show table ".toList = true := by decide +kernel
  obtain ⟨hquote, hbar, hback⟩ := hother
  intro h
  rcases infix_split hquote h with h | h
  · exact absurd h (by decide +kernel)
  rcases infix_split hbar h with h | h
  · exact not_in_blanks (infix_of_endsClear hshow h)
  rcases infix_split hback h with h | h
  · exact absurd h (by decide +kernel)
  rcases infix_split (a := []) hquote h with h | h
  · exact absurd h (by decide +kernel)
  rcases infix_split hback h with h | h
  · exact route.noCommand h
  exact absurd h (by decide +kernel)

theorem cut_execLine (table : TableName) (route : RouteText) :
    cut addWord (execLine table route) =
      some (grepCommand table route, route.text ++ (tableWord table ++ ['"'])) := by
  have hclear : clear addWord addWord = true := by decide +kernel
  exact cut_at (by decide +kernel) (seam_before hclear _ _) (not_in_grepCommand table route)

theorem tableWord_ne_nil (table : TableName) : tableWord table ≠ [] :=
  List.append_ne_nil_of_left_ne_nil (by decide +kernel) _

theorem cut_route (table : TableName) (route : RouteText) :
    cut (tableWord table) (route.text ++ (tableWord table ++ ['"'])) =
      some (route.text, ['"']) := by
  have hstart : " table".toList <+: tableWord table :=
    List.IsPrefix.trans (by decide +kernel) (List.prefix_append " table ".toList table.text)
  refine cut_at (tableWord_ne_nil table) ?_ fun h => route.noTable (hstart.isInfix.trans h)
  intro x y hw hx hy hsuffix hpre
  have hshort : x.length < 6 := by
    by_contra hlong
    have hcut := List.prefix_of_prefix_length_le hstart (hw ▸ List.prefix_append x y)
      (le_trans (by decide +kernel) (not_lt.1 hlong))
    exact route.noTable (hcut.isInfix.trans hsuffix.isInfix)
  -- The word goes on with a letter where its next occurrence would begin with a blank.
  have hblank : (" table ".toList ++ table.text)[x.length]? = some ' ' := by
    obtain ⟨c, y, rfl⟩ := List.exists_cons_of_ne_nil hy
    obtain ⟨rfl, -⟩ := List.cons_prefix_cons.1 hpre
    rw [show " table ".toList ++ table.text = _ from hw, List.getElem?_append_right le_rfl,
      Nat.sub_self]
    rfl
  have hletter : ∀ k < 6, 0 < k → " table ".toList[k]? ≠ some ' ' := by decide +kernel
  refine hletter _ hshort (List.length_pos_iff.2 hx) ?_
  have hlength : x.length < " table ".toList.length := hshort.trans (by decide +kernel)
  rwa [List.getElem?_append_left hlength] at hblank

theorem extract_execLine (table : TableName) (route : RouteText) :
    ((cut addWord (execLine table route)).bind fun p =>
      (cut (tableWord table) p.2).map Prod.fst) = some route.text := by
  rw [cut_execLine, Option.bind_some, cut_route]
  rfl

theorem extractExpectedRoutes_unitFile (lines : UnitLines) (table : TableName)
    (routes : List RouteText) :
    extractExpectedRoutes table (unitFile lines table routes) = routes.map RouteText.text := by
  have hother (others : List Text) (h : ∀ line ∈ others, line ∈ lines.before ++ lines.after) :
      extractExpectedRoutes table others = [] := by
    refine List.filterMap_eq_nil_iff.2 fun line hline => ?_
    rw [cut_eq_none (lines.noCommand line (h line hline)), Option.bind_none]
  have hroutes : extractExpectedRoutes table (routes.map (execLine table)) =
      routes.map RouteText.text := by
    rw [extractExpectedRoutes, List.filterMap_map, ← List.filterMap_eq_map]
    exact List.filterMap_congr fun route _ => extract_execLine table route
  have happend (a b : List Text) : extractExpectedRoutes table (a ++ b) =
      extractExpectedRoutes table a ++ extractExpectedRoutes table b := List.filterMap_append
  rw [unitFile, happend, happend, hroutes, hother lines.before (by simp +contextual),
    hother lines.after (by simp +contextual), List.nil_append, List.append_nil]

end Extraction

/-! ### What the monitor reports -/

section Report

variable {Route : Type} (ip : IpRoute Route)

/-- A route that the monitor reports as present is there. -/
def Truthful (tables : List (Watched Route)) : Prop :=
  ∀ w ∈ tables, ∀ u ∈ w.unit, ∀ d ∈ u.routes,
    (presentName w.table d.text, 1) ∈ monitor ip tables → ip.denotes d.text ∈ w.present

/-- For a desired route that is not there, no line has the text of a route with its metric. -/
def NeverMistaken (tables : List (Watched Route)) : Prop :=
  ∀ w ∈ tables, ∀ u ∈ w.unit, ∀ d ∈ u.routes, ip.denotes d.text ∉ w.present →
    ∀ w' ∈ tables, ∀ u' ∈ w'.unit, ∀ d' ∈ u'.routes,
      presentName w'.table d'.text = presentName w.table d.text →
      ∀ r ∈ w'.present, grepFixed d'.text (ip.line r) = false

theorem presentName_ne (table : TableName) (route rest : Text) :
    presentName table route ≠ "network_routes_".toList ++ rest := by
  intro h
  have hparts : "network_route_".toList ++ sanitizeMetricName table.text ++ "_".toList ++
      sanitizeMetricName route ++ "_present".toList = "network_routes_".toList ++ rest := h
  have htake := congrArg (List.take 14) hparts
  simp only [List.append_assoc] at htake
  rw [List.take_append_of_le_length (by decide +kernel),
    List.take_append_of_le_length (by decide +kernel)] at htake
  exact absurd htake (by decide +kernel)

theorem presentName_ne_tableName (table table' : TableName) (route : Text) (suffix : String) :
    presentName table route ≠ tableName table' suffix := by
  intro h
  have hparts : presentName table route = "network_routes_".toList ++
    sanitizeMetricName table'.text ++ "_".toList ++ suffix.toList := h
  rw [List.append_assoc, List.append_assoc] at hparts
  exact presentName_ne table route _ hparts

/-- The metrics of single routes for a table. -/
theorem mem_checkRoutesForTable {table table' : TableName} {file : Option (List Text)}
    {shown : List Text} {route : Text} :
    (presentName table route, 1) ∈ (checkRoutesForTable table' file shown).1 ↔
      ∃ lines ∈ file, ∃ d ∈ extractExpectedRoutes table' lines, d.isEmpty = false ∧
        presentName table' d = presentName table route ∧ shown.any (grepFixed d) = true := by
  have hname (suffix : String) (n m : ℤ) : (presentName table route, n) ≠
      (tableName table' suffix, m) := fun h => presentName_ne_tableName _ _ _ _ (Prod.mk.inj h).1
  cases file with
  | none => simp [checkRoutesForTable, hname]
  | some lines =>
    simp only [checkRoutesForTable, List.mem_append, List.mem_cons, hname, List.not_mem_nil,
      or_self, or_false, List.mem_map, List.mem_filter, Option.mem_some_iff, exists_eq_left']
    constructor
    · rintro ⟨d, ⟨hd, hempty⟩, heq⟩
      obtain ⟨heq, hone⟩ := Prod.mk.inj heq
      split_ifs at hone with hany
      · exact ⟨d, hd, by simpa using hempty, heq, hany⟩
      · cases hone
    · rintro ⟨d, hd, hempty, heq, hany⟩
      exact ⟨d, ⟨hd, by rw [hempty]; rfl⟩, by rw [heq, if_pos hany]⟩

theorem mem_check {w : Watched Route} {table : TableName} {route : Text} :
    (presentName table route, 1) ∈ (w.check ip).1 ↔ ∃ u ∈ w.unit, ∃ d ∈ u.routes,
      presentName w.table d.text = presentName table route ∧
      ∃ r ∈ w.present, grepFixed d.text (ip.line r) = true := by
  have hany (d : Text) : (w.present.map ip.line).any (grepFixed d) = true ↔
      ∃ r ∈ w.present, grepFixed d (ip.line r) = true := by
    rw [List.any_map, List.any_eq_true]
    rfl
  have hempty (d : RouteText) : d.text.isEmpty = false :=
    List.isEmpty_eq_false_iff.2 d.nonempty
  unfold Watched.check
  rw [mem_checkRoutesForTable]
  cases w.unit with
  | none => simp
  | some u =>
    simp only [Option.map_some, Option.mem_some_iff, exists_eq_left',
      extractExpectedRoutes_unitFile, List.mem_map, exists_exists_and_eq_and, hany, hempty,
      true_and]

/-- The metrics of single routes in the report. -/
theorem mem_monitor {tables : List (Watched Route)} {table : TableName} {route : Text} :
    (presentName table route, 1) ∈ monitor ip tables ↔
      ∃ w ∈ tables, ∃ u ∈ w.unit, ∃ d ∈ u.routes,
        presentName w.table d.text = presentName table route ∧
        ∃ r ∈ w.present, grepFixed d.text (ip.line r) = true := by
  have hall : "network_routes_all_healthy".toList =
      "network_routes_".toList ++ "all_healthy".toList := by decide +kernel
  unfold monitor
  rw [List.mem_append, List.mem_singleton, List.mem_flatMap, or_iff_left]
  · simp only [mem_check]
  · intro h
    exact presentName_ne table route _ ((Prod.mk.inj h).1.trans hall)

theorem truthful_iff (tables : List (Watched Route)) :
    Truthful ip tables ↔ NeverMistaken ip tables := by
  constructor
  · intro h w hw u hu d hd hnot w' hw' u' hu' d' hd' hname r hr
    by_contra hgrep
    have hmetric := (mem_monitor ip).2
      ⟨w', hw', u', hu', d', hd', hname, r, hr, (Bool.not_eq_false _).mp hgrep⟩
    exact hnot (h w hw u hu d hd hmetric)
  · intro h w hw u hu d hd hmetric
    obtain ⟨w', hw', u', hu', d', hd', hname, r, hr, hgrep⟩ := (mem_monitor ip).1 hmetric
    by_contra hnot
    rw [h w hw u hu d hd hnot w' hw' u' hu' d' hd' hname r hr] at hgrep
    cases hgrep

variable {ip} {routes : List RouteText} {t t' : List Route}

/-- The desired routes are there after a start, and the monitor reports as present those that are,
exactly if the text of none is in the line of another route where it counts. -/
theorem routes_iff (h : start ip routes t = some t') (tables : List (Watched Route)) :
    (Installed ip routes t ↔ Unmasked ip routes t) ∧
      ((routes.Pairwise fun d d' => ip.denotes d.text ≠ ip.denotes d'.text) →
        ((∀ d ∈ routes, ip.denotes d.text ∈ t') ↔ Unmasked ip routes t)) ∧
      (Truthful ip tables ↔ NeverMistaken ip tables) := by
  refine ⟨⟨Unmasked.of_installed h, Installed.of_unmasked⟩, fun hdistinct => ⟨fun hall => ?_,
    fun hclear => ?_⟩, truthful_iff ip tables⟩
  · exact Unmasked.of_installed h (Installed.of_final h hdistinct hall)
  · exact Installed.of_unmasked hclear routes List.prefix_rfl t' h

end Report

/-! ### A masked route -/

def mainTable : TableName where
  text := "main".toList
  plain := List.all_eq_true.1 (by decide +kernel)
  noBlank := by decide +kernel

/-- The routes of a device that reaches all its gateways over `br0`. -/
def bridgeRoutes : IpRoute Text where
  denotes d := d ++ " dev br0".toList
  line r := r ++ [' ']
  add d t := if d ++ " dev br0".toList ∈ t then none else some (t ++ [d ++ " dev br0".toList])
  mem_add := by
    intro d t t' h r
    split_ifs at h
    rw [← Option.some.inj h]
    simp

def desiredRoute : RouteText where
  text := "10.8.0.0/16 via 10.1.0.1".toList
  nonempty := by decide +kernel
  plain := List.all_eq_true.1 (by decide +kernel)
  noOption := by decide +kernel
  noCommand := by decide +kernel
  noTable := by decide +kernel

/-- The table of a device whose unit installs the route. -/
def watchedMain (present : List Text) : Watched Text :=
  ⟨mainTable, some ⟨mainUnit false true, [desiredRoute]⟩, present⟩

theorem routes_iff_bridge :
    (Installed bridgeRoutes [desiredRoute] [] ↔ Unmasked bridgeRoutes [desiredRoute] []) ∧
      (([desiredRoute].Pairwise fun d d' =>
          bridgeRoutes.denotes d.text ≠ bridgeRoutes.denotes d'.text) →
        ((∀ d ∈ [desiredRoute],
            bridgeRoutes.denotes d.text ∈ ["10.8.0.0/16 via 10.1.0.1 dev br0".toList]) ↔
          Unmasked bridgeRoutes [desiredRoute] [])) ∧
      (Truthful bridgeRoutes [watchedMain []] ↔ NeverMistaken bridgeRoutes [watchedMain []]) :=
  routes_iff (by decide +kernel) [watchedMain []]

/-- Another gateway passes for the desired one, in the start and in the report. -/
theorem not_routes_masked :
    start bridgeRoutes [desiredRoute] ["10.8.0.0/16 via 10.1.0.10 dev br0".toList] =
        some ["10.8.0.0/16 via 10.1.0.10 dev br0".toList] ∧
      bridgeRoutes.denotes desiredRoute.text ∉ ["10.8.0.0/16 via 10.1.0.10 dev br0".toList] ∧
      ("network_route_main_10_8_0_0_16_via_10_1_0_1_present".toList, 1) ∈ monitor bridgeRoutes
        [watchedMain ["10.8.0.0/16 via 10.1.0.10 dev br0".toList]] := by
  decide +kernel

end Yggdrasil.Network
