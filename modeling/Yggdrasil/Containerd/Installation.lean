import Yggdrasil.Containerd.Locality
import Yggdrasil.Library.Process
import Mathlib.Data.Nat.Bitwise

/-! The installation of an edited configuration, call by call: the text that containerd migrates and
accepts is written beside the configuration and moved over it. The run may end after any call, and
a call that fails may leave its file half written. -/

namespace Yggdrasil.Containerd.Installation

open Effect Process Python

/-! ### The calls -/

section Calls

abbrev Path := String

structure File where
  text : Text
  mode : ℕ
  owner : ℕ × ℕ
  deriving DecidableEq

inductive Call where
  | isFile (path : Path)
  | migrate (path : Path)
  | dump (path : Path)
  | readText (path : Path)
  | stat (path : Path)
  | now
  | copy (source target : Path)
  | chmod (path : Path) (mode : ℕ)
  | createTemporary (stem : String)
  | write (path : Path) (text : Text)
  | fsync (path : Path)
  | chown (path : Path) (owner : ℕ × ℕ)
  | replace (source target : Path)
  | openDirectory
  | fsyncDirectory
  | closeDirectory
  | unlink (path : Path)
  | needsRestart (path : Path)
  | print (line : String)

abbrev Answer : Call → Type
  | .isFile _ => Bool
  | .migrate _ => Text
  | .readText _ => Text
  | .stat _ => ℕ × ℕ × ℕ
  | .now => String
  | .createTemporary _ => Path
  | .needsRestart _ => Bool
  | _ => Unit

inductive Error where
  | runtime (message : String)
  | other
  deriving DecidableEq

/-- The directory of the configuration, with the texts that `config dump` accepted and the lines
that are printed. -/
structure Disk where
  files : Path → Option File
  accepted : List Text
  printed : List String

def universalNewlines : Text → Text
  | '\r' :: '\n' :: cs => '\n' :: universalNewlines cs
  | '\r' :: cs => '\n' :: universalNewlines cs
  | c :: cs => c :: universalNewlines cs
  | [] => []

def Disk.set (s : Disk) (path : Path) (file : Option File) : Disk :=
  { s with files := Function.update s.files path file }

/-- Which answers are possible. No other process changes the directory, and `config migrate` and
`config dump` write nothing. -/
def world : World Disk Call Answer Error := fun s c r s' =>
  match c, r with
  | .isFile path, .ok b => b = (s.files path).isSome ∧ s' = s
  | .dump path, .ok _ => ∃ f, s.files path = some f ∧ s' = { s with accepted := f.text :: s.accepted }
  | .readText path, .ok text => ∃ f, s.files path = some f ∧ text = universalNewlines f.text ∧ s' = s
  | .stat path, .ok (mode, owner) =>
    ∃ f, s.files path = some f ∧ mode = f.mode ∧ owner = f.owner ∧ s' = s
  | .copy source target, .ok _ => ∃ f owner, s.files source = some f ∧
      s' = s.set target (some { f with owner := owner })
  | .copy _ target, .error _ => ∃ f, s' = s.set target f
  | .chmod path mode, .ok _ =>
    ∃ f, s.files path = some f ∧ s' = s.set path (some { f with mode := mode })
  | .createTemporary _, .ok path => s.files path = none ∧
      ∃ owner, s' = s.set path (some ⟨[], 0o600, owner⟩)
  | .write path text, .ok _ =>
    ∃ f, s.files path = some f ∧ s' = s.set path (some { f with text := text })
  | .write path _, .error _ => s' = s ∨ ∃ f part, s.files path = some f ∧
      s' = s.set path (some { f with text := part })
  | .chown path owner, .ok _ => ∃ f, s.files path = some f ∧
      s' = s.set path (some { f with owner := owner })
  | .replace source target, .ok _ => ∃ f, s.files source = some f ∧
      s' = (s.set target (some f)).set source none
  | .unlink path, .ok _ => s' = s.set path none
  | .print line, .ok _ => s' = { s with printed := s.printed ++ [line] }
  | _, _ => s' = s

end Calls

/-! ### The script -/

section Script

abbrev Action := Process Call Answer Error

abbrev ask (c : Call) : Action (Answer c) := perform c

/-- The standard output of `config migrate`, which may not be blank. -/
def migratedText (path : Path) : Action Text := do
  let out ← ask (.migrate path)
  if stripList isSpace out = [] then
    raise (.runtime "containerd config migrate returned an empty configuration")
  else pure out

def migrateConfiguration (config : Path) : Action Text := migratedText config

def normalizeConfiguration (configuration : Text) : Action Text := do
  let temporary ← ask (.createTemporary ".containerd-config-")
  ask (.write temporary configuration)
  ensure (migratedText temporary) (ask (.unlink temporary))

def validateConfiguration (configuration : Text) : Action Unit := do
  let temporary ← ask (.createTemporary ".containerd-config-")
  ask (.write temporary configuration)
  ensure (do
      ask (.chmod temporary 0o600)
      ask (.dump temporary))
    (ask (.unlink temporary))

/-- The last part of a path. -/
def fileName (path : Path) : String :=
  String.ofList (path.toList.reverse.takeWhile (· ≠ '/')).reverse

def backupPath (config : Path) (timestamp : String) : Path :=
  config ++ ".pre-zun-cri." ++ timestamp

def backUp (config backup : Path) : Action Unit := do
  ask (.copy config backup)
  ask (.chmod backup 0o600)

/-- The file beside the configuration gets its mode and owner, and takes its place. -/
def moveOver (config temporary : Path) (status : ℕ × ℕ × ℕ) : Action Unit := do
  ask (.chmod temporary (status.1 &&& 0o777))
  ask (.chown temporary status.2)
  ask (.replace temporary config)
  ask .openDirectory
  ensure (ask .fsyncDirectory) (ask .closeDirectory)

/-- The text is written to a file beside the configuration, which takes its place. -/
def placeOver (config : Path) (configuration : Text) (status : ℕ × ℕ × ℕ) : Action Unit := do
  let temporary ← ask (.createTemporary ("." ++ fileName config ++ "."))
  ask (.write temporary configuration)
  ask (.fsync temporary)
  ensure (moveOver config temporary status) (ask (.unlink temporary))

def installConfiguration (config : Path) (configuration : Text) : Action Unit := do
  let current ← ask (.readText config)
  if current = configuration then ask (.print "unchanged")
  else do
    let status ← ask (.stat config)
    let timestamp ← ask .now
    backUp config (backupPath config timestamp)
    placeOver config configuration status
    ask (.print "changed")

/-- Whether the daemon has to load a configuration that stays as it is. -/
def runtimeStale (config : Path) (same checkRuntimeLoad : Bool) : Action Bool :=
  if same = true ∧ checkRuntimeLoad = true then ask (.needsRestart config) else pure false

def main (literals : LiteralEval) (containerd config : Path) (checkRuntimeLoad : Bool) :
    Action Unit := do
  let hasConfig ← ask (.isFile config)
  if hasConfig = false then raise (.runtime ("containerd config does not exist: " ++ config))
  else do
    let hasContainerd ← ask (.isFile containerd)
    if hasContainerd = false then raise (.runtime ("containerd binary does not exist: " ++ containerd))
    else do
      let migrated ← migrateConfiguration config
      match configureCri literals migrated with
      | .error message => raise (.runtime message)
      | .ok edited => do
        let configured ← normalizeConfiguration edited
        validateConfiguration configured
        let current ← ask (.readText config)
        let stale ← runtimeStale config (current = configured) checkRuntimeLoad
        if stale = true then ask (.print "changed")
        else installConfiguration config configured

end Script

/-! ### A world -/

section Answers

/-- The answers where every call goes well: `config migrate` prints a file as it is, and the
daemon accepts it. -/
def respond (s : Disk) : (c : Call) → Except Error (Answer c) × Disk
  | .isFile path => (.ok (s.files path).isSome, s)
  | .migrate path => match s.files path with
    | some f => (.ok f.text, s)
    | none => (.error .other, s)
  | .dump path => match s.files path with
    | some f => (.ok (), { s with accepted := f.text :: s.accepted })
    | none => (.error .other, s)
  | .readText path => match s.files path with
    | some f => (.ok (universalNewlines f.text), s)
    | none => (.error .other, s)
  | .stat path => match s.files path with
    | some f => (.ok (f.mode, f.owner), s)
    | none => (.error .other, s)
  | .now => (.ok "20260101T000000Z", s)
  | .copy source target => match s.files source with
    | some f => (.ok (), s.set target (some { f with owner := (0, 0) }))
    | none => (.error .other, s.set target (s.files target))
  | .chmod path mode => match s.files path with
    | some f => (.ok (), s.set path (some { f with mode := mode }))
    | none => (.error .other, s)
  | .createTemporary stem => match s.files (stem ++ "x") with
    | some _ => (.error .other, s)
    | none => (.ok (stem ++ "x"), s.set (stem ++ "x") (some ⟨[], 0o600, (0, 0)⟩))
  | .write path text => match s.files path with
    | some f => (.ok (), s.set path (some { f with text := text }))
    | none => (.error .other, s)
  | .chown path owner => match s.files path with
    | some f => (.ok (), s.set path (some { f with owner := owner }))
    | none => (.error .other, s)
  | .replace source target => match s.files source with
    | some f => (.ok (), (s.set target (some f)).set source none)
    | none => (.error .other, s)
  | .unlink path => (.ok (), s.set path none)
  | .print line => (.ok (), { s with printed := s.printed ++ [line] })
  | .fsync _ | .openDirectory | .fsyncDirectory | .closeDirectory => (.ok (), s)
  | .needsRestart _ => (.ok false, s)

theorem world_respond (s : Disk) (c : Call) : world s c (respond s c).1 (respond s c).2 := by
  cases c
  case copy source target =>
    cases h : s.files source with
    | none => simp [world, respond, h]
    | some f => simpa [world, respond, h] using ⟨0, 0, rfl⟩
  case createTemporary stem =>
    cases h : s.files (stem ++ "x") with
    | none => simpa [world, respond, h] using ⟨0, 0, rfl⟩
    | some f => simp [world, respond, h]
  all_goals grind [world, respond]

def configPath : Path := "/etc/containerd/config.toml"

def oldFile : File := ⟨"version = 2\ndisabled_plugins = ['cri']\n".toList, 0o644, (0, 0)⟩

/-- The directory with the daemon and a configuration that disables the CRI. -/
def disk : Disk where
  files := Function.update (Function.update (fun _ => none) configPath (some oldFile))
    "/usr/bin/containerd" (some ⟨[], 0o755, (0, 0)⟩)
  accepted := []
  printed := []

end Answers

/-! ### Rules for the calls -/

section Rules

variable {I P : Disk → Prop} {F : Path → Option File} {L : List String} {path : Path}

/-- A call that only reads. -/
def Call.reads : Call → Bool
  | .isFile _ | .migrate _ | .readText _ | .stat _ | .now | .fsync _ | .openDirectory
  | .fsyncDirectory | .closeDirectory | .needsRestart _ => true
  | _ => false

theorem eq_of_reads {c : Call} (hc : c.reads = true) {s s' : Disk} {r : Except Error (Answer c)}
    (h : world s c r s') : s' = s := by
  cases c <;> cases r <;> simp_all [Call.reads, world]
  all_goals grind

theorem triple_reads {c : Call} (hc : c.reads = true) (hI : ∀ s, P s → I s) :
    Triple world I P (ask c) (fun _ => P) fun _ => P := by
  refine triple_perform hI (fun s a s' hs hw => ?_) fun s x s' hs hw => ?_
  all_goals
    rw [eq_of_reads hc hw]
    exact ⟨hs, hI s hs⟩

/-- The directory as it was. -/
def At (F : Path → Option File) (L : List String) (s : Disk) : Prop := s.files = F ∧ s.printed = L

/-- The directory with one more file. -/
def Beside (F : Path → Option File) (L : List String) (path : Path) (Q : File → Prop) (s : Disk) :
    Prop :=
  F path = none ∧ (∃ f, Q f ∧ s.files = Function.update F path (some f)) ∧ s.printed = L

theorem triple_createTemporary {stem : String} (hat : ∀ s, At F L s → I s)
    (hbeside : ∀ p s, Beside F L p (fun f => f.mode = 0o600) s → I s) :
    Triple world I (At F L) (ask (.createTemporary stem))
      (fun p => Beside F L p fun f => f.mode = 0o600) fun _ _ => True := by
  refine triple_perform hat ?_ ?_
  · rintro s p s' ⟨hfiles, hprinted⟩ ⟨hnone, owner, rfl⟩
    rw [hfiles] at hnone
    have hpost : Beside F L p (fun f => f.mode = 0o600) (s.set p (some ⟨[], 0o600, owner⟩)) :=
      ⟨hnone, ⟨_, rfl, by rw [Disk.set, hfiles]⟩, hprinted⟩
    exact ⟨hpost, hbeside p _ hpost⟩
  · rintro s x s' hs rfl
    exact ⟨trivial, hat _ hs⟩

theorem Beside.update {Q R : File → Prop} {s : Disk} (h : Beside F L path Q s) {f g : File}
    (hf : s.files path = some f) (hg : Q f → R g) : Beside F L path R (s.set path (some g)) := by
  obtain ⟨hnone, ⟨f', hf', hfiles⟩, hprinted⟩ := h
  rw [hfiles, Function.update_self] at hf
  obtain rfl := Option.some.inj hf
  exact ⟨hnone, ⟨g, hg hf', by rw [Disk.set, hfiles, Function.update_idem]⟩, hprinted⟩

theorem triple_write {text : Text} (hI : ∀ Q s, Beside F L path Q s → I s) {Q : File → Prop} :
    Triple world I (Beside F L path Q) (ask (.write path text))
      (fun _ => Beside F L path fun f => f.text = text) fun _ _ => True := by
  refine triple_perform (fun s => hI Q s) ?_ ?_
  · rintro s - s' hs ⟨f, hf, rfl⟩
    have hpost := hs.update (R := fun f => f.text = text) (g := { f with text := text }) hf
      fun _ => rfl
    exact ⟨hpost, hI _ _ hpost⟩
  · rintro s x s' hs (rfl | ⟨f, part, hf, rfl⟩)
    · exact ⟨trivial, hI _ _ hs⟩
    · exact ⟨trivial, hI _ _ (hs.update (R := fun _ => True) hf fun _ => trivial)⟩

theorem triple_chmod {mode : ℕ} {Q R : File → Prop} (hI : ∀ Q s, Beside F L path Q s → I s)
    (hR : ∀ f, Q f → R { f with mode := mode }) :
    Triple world I (Beside F L path Q) (ask (.chmod path mode)) (fun _ => Beside F L path R)
      fun _ => Beside F L path Q := by
  refine triple_perform (fun s => hI Q s) ?_ ?_
  · rintro s - s' hs ⟨f, hf, rfl⟩
    have hpost := hs.update hf (hR f)
    exact ⟨hpost, hI _ _ hpost⟩
  · rintro s x s' hs rfl
    exact ⟨hs, hI _ _ hs⟩

theorem triple_chown {owner : ℕ × ℕ} {Q R : File → Prop} (hI : ∀ Q s, Beside F L path Q s → I s)
    (hR : ∀ f, Q f → R { f with owner := owner }) :
    Triple world I (Beside F L path Q) (ask (.chown path owner)) (fun _ => Beside F L path R)
      fun _ => Beside F L path Q := by
  refine triple_perform (fun s => hI Q s) ?_ ?_
  · rintro s - s' hs ⟨f, hf, rfl⟩
    have hpost := hs.update hf (hR f)
    exact ⟨hpost, hI _ _ hpost⟩
  · rintro s x s' hs rfl
    exact ⟨hs, hI _ _ hs⟩

theorem triple_unlink {Q : File → Prop} (hat : ∀ s, At F L s → I s)
    (hI : ∀ s, Beside F L path Q s → I s) :
    Triple world I (Beside F L path Q) (ask (.unlink path)) (fun _ => At F L) fun _ _ => True := by
  refine triple_perform hI ?_ ?_
  · rintro s - s' ⟨hnone, ⟨f, -, hfiles⟩, hprinted⟩ rfl
    have hpost : At F L (s.set path none) := by
      refine ⟨?_, hprinted⟩
      rw [Disk.set, hfiles, Function.update_idem, ← hnone, Function.update_eq_self]
    exact ⟨hpost, hat _ hpost⟩
  · rintro s x s' hs rfl
    exact ⟨trivial, hI _ hs⟩

/-- Without the file nothing changes. -/
theorem triple_unlink_absent (hnone : F path = none) (hat : ∀ s, At F L s → I s) :
    Triple world I (At F L) (ask (.unlink path)) (fun _ => At F L) fun _ => At F L := by
  refine triple_perform hat ?_ ?_
  · rintro s - s' ⟨hfiles, hprinted⟩ rfl
    have hpost : At F L (s.set path none) := by
      refine ⟨?_, hprinted⟩
      rw [Disk.set, hfiles, ← hnone, Function.update_eq_self]
    exact ⟨hpost, hat _ hpost⟩
  · rintro s x s' hs rfl
    exact ⟨hs, hat _ hs⟩

end Rules

/-! ### The steps of the script -/

section Steps

variable {I : Disk → Prop} {F : Path → Option File} {L : List String}

theorem triple_migratedText {P : Disk → Prop} (path : Path) (hI : ∀ s, P s → I s) :
    Triple world I P (migratedText path) (fun _ => P) fun _ => P := by
  refine triple_bind (triple_reads rfl hI) fun out => ?_
  exact triple_ite (fun _ => triple_raise hI fun _ hs => hs) fun _ =>
    triple_ret hI fun _ hs => hs

theorem triple_normalizeConfiguration {configuration : Text} (hat : ∀ s, At F L s → I s)
    (hI : ∀ p Q s, Beside F L p Q s → I s) :
    Triple world I (At F L) (normalizeConfiguration configuration) (fun _ => At F L)
      fun _ _ => True := by
  refine triple_bind (triple_createTemporary hat fun p s => hI p _ s) fun p => ?_
  refine triple_bind (triple_write (hI p)) fun _ => ?_
  exact triple_ensure (M := fun _ => Beside F L p fun f => f.text = configuration)
    (triple_migratedText p (hI p _)) (fun _ => triple_unlink hat (hI p _))
    fun _ => (triple_unlink hat (hI p _)).consequence (fun _ h => h) (fun _ _ _ => trivial)
      fun _ _ h => h

/-- Nothing that was accepted is forgotten. -/
theorem mem_accepted {text : Text} {c : Call} {r : Except Error (Answer c)} {s s' : Disk}
    (h : world s c r s') (hs : text ∈ s.accepted) : text ∈ s'.accepted := by
  by_cases hc : c.reads = true
  · rwa [eq_of_reads hc h]
  · cases c <;> cases r <;> simp_all only [Call.reads, world, Disk.set] <;> grind

theorem triple_accepted {α : Type} (text : Text) (p : Action α) :
    Triple world (fun s => text ∈ s.accepted) (fun s => text ∈ s.accepted) p
      (fun _ s => text ∈ s.accepted) fun _ s => text ∈ s.accepted :=
  (respects_true p).triple fun _ _ _ _ hs _ hw => mem_accepted hw hs

theorem triple_dump {path : Path} {text : Text} (hI : ∀ Q s, Beside F L path Q s → I s) :
    Triple world I (Beside F L path fun f => f.text = text) (ask (.dump path))
      (fun _ s => Beside F L path (fun f => f.text = text) s ∧ text ∈ s.accepted)
      fun _ => Beside F L path fun f => f.text = text := by
  refine triple_perform (fun s => hI _ s) ?_ ?_
  · rintro s - s' hs ⟨f, hf, rfl⟩
    have htext : f.text = text := by
      obtain ⟨-, ⟨g, hg, hfiles⟩, -⟩ := hs
      rw [hfiles, Function.update_self] at hf
      rw [← Option.some.inj hf, hg]
    have hpost : Beside F L path (fun f => f.text = text)
        { s with accepted := f.text :: s.accepted } := hs
    exact ⟨⟨hpost, by rw [htext]; exact List.mem_cons_self⟩, hI _ _ hpost⟩
  · rintro s x s' hs rfl
    exact ⟨hs, hI _ _ hs⟩

theorem triple_validateConfiguration {configuration : Text} (hat : ∀ s, At F L s → I s)
    (hI : ∀ p Q s, Beside F L p Q s → I s) :
    Triple world I (At F L) (validateConfiguration configuration)
      (fun _ s => At F L s ∧ configuration ∈ s.accepted) fun _ _ => True := by
  refine triple_bind (triple_createTemporary hat fun p s => hI p _ s) fun p => ?_
  refine triple_bind (triple_write (hI p)) fun _ => ?_
  refine triple_ensure (M := fun o s => Beside F L p (fun f => f.text = configuration) s ∧
      (o = .value () → configuration ∈ s.accepted)) ?_ (fun _ => ?_) fun _ => ?_
  · refine triple_bind (M := fun _ => Beside F L p fun f => f.text = configuration)
      ((triple_chmod (hI p) fun _ h => h).consequence (fun _ h => h) (fun _ _ h => h)
        fun _ _ h => ⟨h, fun hx => by cases hx⟩) fun _ => ?_
    exact (triple_dump (hI p)).consequence (fun _ h => h) (fun _ _ h => ⟨h.1, fun _ => h.2⟩)
      fun _ _ h => ⟨h, fun hx => by cases hx⟩
  · have hunlink := (triple_unlink hat (hI p (fun f => f.text = configuration))).and
      (triple_accepted configuration (ask (.unlink p)))
    exact (hunlink.weaken fun _ h => h.1).consequence (fun _ h => ⟨h.1, h.2 rfl⟩) (fun _ _ h => h)
      fun _ _ _ => trivial
  · exact (triple_unlink hat (hI p _)).consequence (fun _ h => h.1) (fun _ _ _ => trivial)
      fun _ _ h => h

end Steps

/-! ### The configuration at every moment -/

section Moments

variable {F : Path → Option File} {L : List String} {config : Path} {old : File}

/-- The mode and the owner of the configuration with another text. -/
def File.rewritten (old : File) (text : Text) : File := ⟨text, old.mode &&& 0o777, old.owner⟩

/-- A copy of the configuration that only its owner may read. -/
def File.kept (old : File) (owner : ℕ × ℕ) : File := ⟨old.text, 0o600, owner⟩

/-- The configuration is as it was, or it has the new text, with a backup beside it. -/
def Moved (config : Path) (old : File) (text : Text) (s : Disk) : Prop :=
  s.files config = some old ∨ s.files config = some (old.rewritten text) ∧
    ∃ backup owner, backup ≠ config ∧ s.files backup = some (old.kept owner)

/-- The directory after an installation. -/
def installed (F : Path → Option File) (config backup : Path) (old : File) (owner : ℕ × ℕ)
    (text : Text) : Path → Option File :=
  Function.update (Function.update F backup (some (old.kept owner))) config
    (some (old.rewritten text))

theorem files_of_at (hold : F config = some old) {s : Disk} (h : At F L s) :
    s.files config = some old := by rw [h.1, hold]

theorem files_of_beside (hold : F config = some old) {p : Path} {Q : File → Prop} {s : Disk}
    (h : Beside F L p Q s) : s.files config = some old := by
  obtain ⟨hnone, ⟨f, -, hfiles⟩, -⟩ := h
  have hne : config ≠ p := by
    rintro rfl
    rw [hold] at hnone
    cases hnone
  rw [hfiles, Function.update_of_ne hne, hold]

theorem moved_of_at {text : Text} (hold : F config = some old) {s : Disk} (h : At F L s) :
    Moved config old text s := .inl (files_of_at hold h)

theorem moved_of_beside {text : Text} (hold : F config = some old) {p : Path} {Q : File → Prop}
    {s : Disk} (h : Beside F L p Q s) : Moved config old text s := .inl (files_of_beside hold h)

theorem moved_of_installed {text : Text} {backup : Path} {owner : ℕ × ℕ} (hne : config ≠ backup)
    {s : Disk} (h : At (installed F config backup old owner text) L s) :
    Moved config old text s := by
  refine .inr ⟨by rw [h.1, installed, Function.update_self], backup, owner, Ne.symm hne, ?_⟩
  rw [h.1, installed, Function.update_of_ne (Ne.symm hne), Function.update_self]

theorem backupPath_ne (config : Path) (timestamp : String) :
    backupPath config timestamp ≠ config := by
  intro h
  have hlength := congrArg (fun p : String => p.toList.length) h
  simp [backupPath] at hlength

/-- The backup, readable for its owner only. -/
theorem triple_backUp {text : Text} {backup : Path} (hold : F config = some old)
    (hne : config ≠ backup) : Triple world (Moved config old text) (At F L) (backUp config backup)
      (fun _ s => ∃ owner, At (Function.update F backup (some (old.kept owner))) L s)
      fun _ _ => True := by
  have hmoved (s : Disk) (f : Option File) (h : At F L s) :
      Moved config old text (s.set backup f) := by
    refine .inl ?_
    rw [Disk.set, h.1]
    exact (Function.update_of_ne hne _ _).trans hold
  refine triple_bind (M := fun _ s => ∃ owner, At (Function.update F backup
    (some { old with owner := owner })) L s) ?_ fun _ => ?_
  · refine triple_perform (fun _ => moved_of_at hold) ?_ ?_
    · rintro s - s' hs ⟨f, owner, hf, rfl⟩
      rw [hs.1, hold] at hf
      obtain rfl := Option.some.inj hf
      exact ⟨⟨owner, by rw [Disk.set, hs.1], hs.2⟩, hmoved s _ hs⟩
    · rintro s x s' hs ⟨f, rfl⟩
      exact ⟨trivial, hmoved s f hs⟩
  · have hat (owner : ℕ × ℕ) (g : File) (s : Disk)
        (h : At (Function.update F backup (some g)) L s) :
        Moved config old text s :=
      moved_of_at (by rw [Function.update_of_ne hne, hold]) h
    refine triple_perform (fun s ⟨owner, h⟩ => hat owner _ s h) ?_ ?_
    · rintro s - s' ⟨owner, hfiles, hprinted⟩ ⟨f, hf, rfl⟩
      rw [hfiles, Function.update_self] at hf
      obtain rfl := Option.some.inj hf
      have hpost : At (Function.update F backup (some (old.kept owner))) L
          (s.set backup
            (some { old with owner := owner, mode := 0o600 })) := by
        refine ⟨?_, hprinted⟩
        rw [Disk.set, hfiles, Function.update_idem]
        rfl
      exact ⟨⟨owner, hpost⟩, hat owner _ _ hpost⟩
    · rintro s x s' ⟨owner, h⟩ rfl
      exact ⟨trivial, hat owner _ _ h⟩

/-- The move itself. Where it fails, the file is still beside the configuration, or it has taken
its place. -/
theorem triple_moveOver {text : Text} {backup p : Path} {owner : ℕ × ℕ}
    (hold : F config = some old) (hne : config ≠ backup) :
    Triple world (Moved config old text)
      (Beside (Function.update F backup (some (old.kept owner))) L p fun f => f.text = text)
      (moveOver config p (old.mode, old.owner))
      (fun _ => At (installed F config backup old owner text) L)
      fun _ s => (∃ Q, Beside (Function.update F backup (some (old.kept owner))) L p Q s) ∨
        At (installed F config backup old owner text) L s := by
  set G := Function.update F backup (some (old.kept owner)) with hG
  have hGold : G config = some old := by rw [hG, Function.update_of_ne hne, hold]
  have hbeside (Q : File → Prop) (s : Disk) (h : Beside G L p Q s) : Moved config old text s :=
    moved_of_beside hGold h
  have hinstalled (s : Disk) (h : At (installed F config backup old owner text) L s) :
      Moved config old text s := moved_of_installed hne h
  refine triple_bind (M := fun _ => Beside G L p fun f => f.text = text ∧
    f.mode = old.mode &&& 0o777) ((triple_chmod hbeside fun f hf => ⟨hf, rfl⟩).consequence
      (fun _ h => h) (fun _ _ h => h) fun _ _ h => .inl ⟨_, h⟩) fun _ => ?_
  refine triple_bind (M := fun _ => Beside G L p fun f => f = old.rewritten text)
    ((triple_chown hbeside fun f hf => ?_).consequence
      (fun _ h => h) (fun _ _ h => h) fun _ _ h => .inl ⟨_, h⟩) fun _ => ?_
  · rw [File.rewritten, ← hf.1, ← hf.2]
  refine triple_bind (M := fun _ => At (installed F config backup old owner text) L) ?_ fun _ => ?_
  · refine triple_perform (fun s => hbeside _ s) ?_ ?_
    · rintro s - s' ⟨hnone, ⟨f, rfl, hfiles⟩, hprinted⟩ ⟨g, hg, rfl⟩
      rw [hfiles, Function.update_self] at hg
      obtain rfl := Option.some.inj hg
      have hp : config ≠ p := by
        rintro rfl
        rw [hGold] at hnone
        cases hnone
      have hpost : At (installed F config backup old owner text) L
          ((s.set config (some (old.rewritten text))).set p none) := by
        refine ⟨?_, hprinted⟩
        rw [Disk.set, Disk.set, hfiles, Function.update_comm hp, Function.update_idem,
          ← hnone, Function.update_eq_self]
        rfl
      exact ⟨hpost, hinstalled _ hpost⟩
    · rintro s x s' hs rfl
      exact ⟨.inl ⟨_, hs⟩, hbeside _ _ hs⟩
  have hreads {c : Call} (hc : c.reads = true) := triple_reads hc hinstalled
  refine (triple_bind (hreads rfl) fun _ => ?_).consequence (fun _ h => h) (fun _ _ h => h)
    fun _ _ h => .inr h
  exact triple_ensure (M := fun _ => At (installed F config backup old owner text) L)
    (hreads rfl) (fun _ => hreads rfl) fun _ => hreads rfl

/-- Removing the file that was written, wherever the move has left it. -/
theorem triple_unlink_moved {text : Text} {backup p : Path} {owner : ℕ × ℕ}
    (hold : F config = some old) (hne : config ≠ backup) (hp : config ≠ p)
    (hnone : Function.update F backup (some (old.kept owner)) p = none) :
    Triple world (Moved config old text)
      (fun s => (∃ Q, Beside (Function.update F backup (some (old.kept owner))) L p Q s) ∨
        At (installed F config backup old owner text) L s)
      (ask (.unlink p)) (fun _ _ => True) fun _ _ => True := by
  have hGold : Function.update F backup (some (old.kept owner)) config = some old := by
    rw [Function.update_of_ne hne, hold]
  have hinstalled : installed F config backup old owner text p = none := by
    rw [installed, Function.update_of_ne (Ne.symm hp), hnone]
  refine triple_intro fun s hs => ?_
  rcases hs with ⟨Q, hs⟩ | hs
  · exact (triple_unlink (fun _ => moved_of_at hGold) fun _ => moved_of_beside hGold).consequence
      (fun _ h => h ▸ hs) (fun _ _ _ => trivial) fun _ _ h => h
  · exact (triple_unlink_absent hinstalled fun _ => moved_of_installed hne).consequence
      (fun _ h => h ▸ hs) (fun _ _ _ => trivial) fun _ _ _ => trivial

theorem triple_placeOver {text : Text} {backup : Path} {owner : ℕ × ℕ}
    (hold : F config = some old) (hne : config ≠ backup) :
    Triple world (Moved config old text)
      (At (Function.update F backup (some (old.kept owner))) L)
      (placeOver config text (old.mode, old.owner))
      (fun _ => At (installed F config backup old owner text) L) fun _ _ => True := by
  have hGold : Function.update F backup (some (old.kept owner)) config = some old := by
    rw [Function.update_of_ne hne, hold]
  have hbeside (p : Path) (Q : File → Prop) (s : Disk)
      (h : Beside (Function.update F backup (some (old.kept owner))) L p Q s) :
      Moved config old text s := moved_of_beside hGold h
  refine triple_bind (triple_createTemporary (fun _ => moved_of_at hGold) fun p s => hbeside p _ s)
    fun p => ?_
  refine triple_intro fun s hs => ?_
  have hnone := hs.1
  have hp : config ≠ p := by
    rintro rfl
    rw [hGold] at hnone
    cases hnone
  refine triple_bind ((triple_write (hbeside p)).consequence (fun _ h => h ▸ hs)
    (fun _ _ h => h) fun _ _ h => h) fun _ => ?_
  refine triple_bind ((triple_reads rfl (hbeside p _)).consequence (fun _ h => h)
    (fun _ _ h => h) fun _ _ _ => trivial) fun _ => ?_
  refine triple_ensure (M := fun o s => (o ≠ .value () ∧
      ∃ Q, Beside (Function.update F backup (some (old.kept owner))) L p Q s) ∨
      At (installed F config backup old owner text) L s)
    ((triple_moveOver hold hne).consequence (fun _ h => h) (fun _ _ h => .inr h)
      fun _ _ h => h.imp_left fun h => ⟨nofun, h⟩) (fun _ => ?_) fun x =>
    (triple_unlink_moved hold hne hp hnone).consequence (fun _ h => h.imp_left And.right)
      (fun _ _ h => h) fun _ _ h => h
  have hinstalled : installed F config backup old owner text p = none := by
    rw [installed, Function.update_of_ne (Ne.symm hp), hnone]
  exact (triple_unlink_absent hinstalled fun _ => moved_of_installed hne).consequence
    (fun _ h => h.resolve_left fun h => h.1 rfl) (fun _ _ h => h) fun _ _ _ => trivial

/-- What an installation leaves: the configuration as it is, or a new one with its backup. -/
def Left (F : Path → Option File) (L : List String) (config : Path) (old : File) (text : Text)
    (s : Disk) : Prop :=
  At F (L ++ ["unchanged"]) s ∧ universalNewlines old.text = text ∨
    ∃ backup owner, backup ≠ config ∧
      At (installed F config backup old owner text) (L ++ ["changed"]) s

theorem triple_print {I : Disk → Prop} (hI : ∀ L s, At F L s → I s) (line : String) :
    Triple world I (At F L) (ask (.print line)) (fun _ => At F (L ++ [line])) fun _ => At F L := by
  refine triple_perform (hI L) ?_ ?_
  · rintro s - s' ⟨hfiles, hprinted⟩ rfl
    have hpost : At F (L ++ [line]) { s with printed := s.printed ++ [line] } :=
      ⟨hfiles, by rw [hprinted]⟩
    exact ⟨hpost, hI _ _ hpost⟩
  · rintro s x s' hs rfl
    exact ⟨hs, hI _ _ hs⟩

theorem triple_readText {I : Disk → Prop} (hold : F config = some old) (hI : ∀ s, At F L s → I s) :
    Triple world I (At F L) (ask (.readText config))
      (fun current s => At F L s ∧ current = universalNewlines old.text) fun _ _ => True := by
  refine triple_perform hI ?_ ?_
  · rintro s current s' hs ⟨f, hf, rfl, rfl⟩
    rw [hs.1, hold] at hf
    exact ⟨⟨hs, by rw [Option.some.inj hf]⟩, hI _ hs⟩
  · rintro s x s' hs rfl
    exact ⟨trivial, hI _ hs⟩

theorem triple_stat {I : Disk → Prop} (hold : F config = some old) (hI : ∀ s, At F L s → I s) :
    Triple world I (At F L) (ask (.stat config))
      (fun status s => At F L s ∧ status = (old.mode, old.owner)) fun _ _ => True := by
  refine triple_perform hI ?_ ?_
  · rintro s ⟨mode, owner⟩ s' hs ⟨f, hf, rfl, rfl, rfl⟩
    rw [hs.1, hold] at hf
    exact ⟨⟨hs, by rw [Option.some.inj hf]⟩, hI _ hs⟩
  · rintro s x s' hs rfl
    exact ⟨trivial, hI _ hs⟩

theorem triple_installConfiguration (hold : F config = some old) (text : Text) :
    Triple world (Moved config old text) (At F L) (installConfiguration config text)
      (fun _ => Left F L config old text) fun _ _ => True := by
  have hat (L : List String) (s : Disk) (h : At F L s) : Moved config old text s :=
    moved_of_at hold h
  refine triple_bind (triple_readText hold (hat L)) fun current => ?_
  refine triple_ite (fun hsame => ?_) fun _ => ?_
  · refine triple_intro fun s ⟨hs, hcurrent⟩ => ?_
    exact (triple_print hat _).consequence (fun _ h => h ▸ hs)
      (fun _ _ h => .inl ⟨h, hcurrent.symm.trans hsame⟩) fun _ _ _ => trivial
  refine triple_bind ((triple_stat hold (hat L)).consequence (fun _ h => h.1) (fun _ _ h => h)
    fun _ _ h => h) fun status => ?_
  refine triple_intro fun s ⟨hs, hstatus⟩ => ?_
  subst hstatus
  refine triple_bind (M := fun _ => At F L) ?_ fun timestamp => ?_
  · exact (triple_reads rfl (hat L)).consequence (fun _ h => h ▸ hs) (fun _ _ h => h)
      fun _ _ _ => trivial
  have hne := Ne.symm (backupPath_ne config timestamp)
  refine triple_bind (triple_backUp hold hne) fun _ => ?_
  refine triple_intro fun s ⟨owner, hs⟩ => ?_
  refine triple_bind ((triple_placeOver hold hne).consequence (fun _ h => h ▸ hs) (fun _ _ h => h)
    fun _ _ h => h) fun _ => ?_
  exact (triple_print (fun _ _ => moved_of_installed hne) _).consequence (fun _ h => h)
    (fun _ _ h => .inr ⟨_, owner, Ne.symm hne, h⟩) fun _ _ _ => trivial

/-- The configuration is as it was, or it has a text that containerd has accepted, with the mode
and the owner of the old one and a backup beside it. -/
def Whole (config : Path) (old : File) (s : Disk) : Prop :=
  s.files config = some old ∨ ∃ text ∈ s.accepted, s.files config = some (old.rewritten text) ∧
    ∃ backup owner, backup ≠ config ∧ s.files backup = some (old.kept owner)

/-- The directory is as it was and the configuration is what containerd accepts, or a text that it
accepts is installed; no other file is left. -/
def Done (F : Path → Option File) (L : List String) (config : Path) (old : File) (s : Disk) :
    Prop :=
  ∃ text ∈ s.accepted,
    (∃ line, (line = "unchanged" ∨ line = "changed") ∧ At F (L ++ [line]) s ∧
      universalNewlines old.text = text) ∨
    ∃ backup owner, backup ≠ config ∧
      At (installed F config backup old owner text) (L ++ ["changed"]) s

theorem triple_install_accepted (hold : F config = some old) (text : Text) :
    Triple world (Whole config old) (fun s => At F L s ∧ text ∈ s.accepted)
      (installConfiguration config text) (fun _ => Done F L config old) fun _ _ => True := by
  refine (((triple_installConfiguration hold text).and (triple_accepted text _)).weaken
    fun s h => ?_).consequence (fun _ h => h) (fun _ s h => ⟨text, h.2, ?_⟩) fun _ _ _ => trivial
  · rcases h.1 with hsame | hnew
    · exact .inl hsame
    · exact .inr ⟨text, h.2, hnew⟩
  · rcases h.1 with ⟨hat, hsame⟩ | hnew
    · exact .inl ⟨_, .inl rfl, hat, hsame⟩
    · exact .inr hnew

theorem triple_main (literals : LiteralEval) (containerd : Path) (checkRuntimeLoad : Bool)
    (hold : F config = some old) :
    Triple world (Whole config old) (At F L) (main literals containerd config checkRuntimeLoad)
      (fun _ => Done F L config old) fun _ _ => True := by
  have hat (L : List String) (s : Disk) (h : At F L s) : Whole config old s :=
    .inl (files_of_at hold h)
  have hbeside (p : Path) (Q : File → Prop) (s : Disk) (h : Beside F L p Q s) :
      Whole config old s := .inl (files_of_beside hold h)
  have hreads {c : Call} (hc : c.reads = true) : Triple world (Whole config old) (At F L) (ask c)
      (fun _ => At F L) fun _ _ => True := (triple_reads hc (hat L)).consequence (fun _ h => h)
    (fun _ _ h => h) fun _ _ _ => trivial
  have hraise {x : Error} : Triple world (Whole config old) (At F L) (raise x : Action Unit)
      (fun _ => Done F L config old) fun _ _ => True := triple_raise (hat L) fun _ _ => trivial
  refine triple_bind (hreads rfl) fun hasConfig => ?_
  refine triple_ite (fun _ => hraise) fun _ => ?_
  refine triple_bind (hreads rfl) fun hasContainerd => ?_
  refine triple_ite (fun _ => hraise) fun _ => ?_
  refine triple_bind ((triple_migratedText config (hat L)).consequence (fun _ h => h)
    (fun _ _ h => h) fun _ _ _ => trivial) fun migrated => ?_
  cases configureCri literals migrated with
  | error message => exact hraise
  | ok edited =>
    refine triple_bind (triple_normalizeConfiguration (hat L) hbeside) fun configured => ?_
    refine triple_bind (triple_validateConfiguration (hat L) hbeside) fun _ => ?_
    refine triple_intro fun s ⟨hs, haccepted⟩ => ?_
    have hkeep {α : Type} {p : Action α} {Post : α → Disk → Prop}
        (hp : Triple world (Whole config old) (At F L) p Post fun _ _ => True) :
        Triple world (Whole config old) (fun s => At F L s ∧ configured ∈ s.accepted) p
          (fun a s => Post a s ∧ configured ∈ s.accepted) fun _ _ => True :=
      ((hp.and (triple_accepted configured p)).weaken fun _ h => h.1).consequence (fun _ h => h)
        (fun _ _ h => h) fun _ _ _ => trivial
    refine triple_bind ((hkeep (triple_readText hold (hat L))).consequence
      (fun _ h => h ▸ ⟨hs, haccepted⟩) (fun _ _ h => h) fun _ _ h => h) fun current => ?_
    refine triple_intro fun s ⟨⟨hs, hcurrent⟩, haccepted⟩ => ?_
    refine triple_bind (M := fun stale s => (At F L s ∧ configured ∈ s.accepted) ∧
      (stale = true → current = configured)) (triple_ite (fun hsame => ?_) fun _ => ?_)
      fun stale => ?_
    · exact (hkeep (hreads rfl)).consequence (fun _ h => h ▸ ⟨hs, haccepted⟩)
        (fun _ _ h => ⟨h, fun _ => of_decide_eq_true hsame.1⟩) fun _ _ h => h
    · exact triple_ret (fun _ h => h ▸ hat L s hs) fun _ h => h ▸ ⟨⟨hs, haccepted⟩, nofun⟩
    · refine triple_intro fun s ⟨hs, hstale⟩ => ?_
      refine triple_ite (fun hstop => ?_) fun _ => ?_
      · have hprint := hkeep ((triple_print hat "changed").consequence
          (fun _ h => h) (fun _ _ h => h) fun _ _ _ => trivial)
        exact hprint.consequence (fun _ h => h ▸ hs) (fun _ _ h => ⟨configured, h.2, .inl
          ⟨_, .inr rfl, h.1, hcurrent.symm.trans (hstale hstop)⟩⟩) fun _ _ h => h
      · exact (triple_install_accepted hold configured).consequence (fun _ h => h ▸ hs)
          (fun _ _ h => h) fun _ _ h => h

/-- At every moment of a run, and wherever it is cut off, the configuration is whole: no half
written and no rejected text is ever in its place. -/
theorem main_whole {literals : LiteralEval} {containerd config : Path} {checkRuntimeLoad : Bool}
    {s s' : Disk} {o : Outcome Error Unit} (hold : s.files config = some old)
    (h : Exec world (main literals containerd config checkRuntimeLoad) s o s') :
    Whole config old s' :=
  (triple_main literals containerd checkRuntimeLoad hold).always s ⟨rfl, rfl⟩ o s' h

theorem main_whole_cri : Whole configPath oldFile
    ((main literals "/usr/bin/containerd" configPath true).play respond disk).2 :=
  main_whole rfl (exec_play world_respond _ disk)

end Moments

end Yggdrasil.Containerd.Installation
