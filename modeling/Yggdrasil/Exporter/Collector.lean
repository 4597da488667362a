import Mathlib.Logic.Function.Basic
import Mathlib.Logic.Relation
import Yggdrasil.Exporter.Texts

/-! `collector.py` beside the scripts that write what it reads. A script truncates its file and
appends to it piece by piece; the collector lists the files, reads each in chunks and publishes
the metrics in it. What one of them does may fall between any two steps of the others. -/

namespace Yggdrasil.Exporter

open Python

/-- What the collector asks of `Gauge` and of `float`: whether they take a text. -/
structure Client where
  acceptsName : String → Bool
  acceptsNumber : String → Bool

inductive Failure where
  | fileNotFound | json | attribute | value | type | index
  deriving DecidableEq

structure Gauge where
  name : String
  documentation : String
  value : Option Json

/-- `metric_list` and `metric_object_list`. -/
structure Registry where
  metricList : List String
  metricObjectList : List Gauge

section Parsing

variable (client : Client)

/-- The exception of `float(value)`. -/
def floatFailure : Json → Option Failure
  | .number _ => none
  | .bool _ => none
  | .string s => if client.acceptsNumber s then none else some .value
  | _ => some .type

/-- `metric_object_list[index].set(value)`. -/
def Registry.set (r : Registry) (index : ℕ) (value : Json) : Option Failure × Registry :=
  match r.metricObjectList[index]? with
  | none => (some .index, r)
  | some gauge =>
    match floatFailure client value with
    | some x => (some x, r)
    | none => (none, { r with
        metricObjectList := r.metricObjectList.set index { gauge with value := some value } })

/-- The body of the loop of `parse_metrics`. -/
def Registry.publish (path : String) (r : Registry) (metric : String) (value : Json) :
    Option Failure × Registry :=
  match r.metricList.idxOf? metric with
  | some index => r.set client index value
  | none =>
    let r := { r with metricList := r.metricList ++ [metric] }
    if client.acceptsName metric then
      let gauge : Gauge := ⟨metric, "Custom metric in file " ++ path, none⟩
      let r := { r with metricObjectList := r.metricObjectList ++ [gauge] }
      r.set client (r.metricObjectList.length - 1) value
    else (some .value, r)

def Registry.publishAll (path : String) : Registry → List (String × Json) → Option Failure × Registry
  | r, [] => (none, r)
  | r, (metric, value) :: items =>
    match r.publish client path metric value with
    | (none, r) => Registry.publishAll path r items
    | (some x, r) => (some x, r)

def parseMetrics (path : String) (contents : List Char) (r : Registry) :
    Option Failure × Registry :=
  match Json.loads contents with
  | none => (some .json, r)
  | some (.object items) => r.publishAll client path items
  | some _ => (some .attribute, r)

end Parsing

/-! ### The system -/

def MetricScript.fileName : MetricScript → String
  | docker => "docker_containers_status.json"
  | interfaces => "network_interfaces_status.json"
  | routes => "network_routes_status.json"

/-- `file_full_path`. -/
def MetricScript.path (script : MetricScript) : String := "/tmp/custom_metrics/" ++ script.fileName

/-- How far a script is: not writing, with some pieces left to write, or cut off by `timeout`
while it wrote. -/
inductive Writer where
  | idle
  | writing (h : Host) (left : List (List Char))
  | cutOff

inductive Collector where
  | listing
  | pending (files : List MetricScript)
  | reading (file : MetricScript) (buffer : List Char) (left : List MetricScript)
  | dead (x : Failure)

/-- The state of the directory, of the scripts and of the collector; `completed` are the hosts
of which a script has finished a snapshot. -/
structure System where
  files : MetricScript → Option (List Char)
  writers : MetricScript → Writer
  completed : MetricScript → List Host
  collector : Collector
  registry : Registry

def System.start : System := ⟨fun _ => none, fun _ => .idle, fun _ => [], .listing, ⟨[], []⟩⟩

inductive Action where
  | truncate (script : MetricScript) (h : Host)
  | append (script : MetricScript)
  | finish (script : MetricScript)
  | cutOff (script : MetricScript)
  | listFiles
  | sleep
  | openFile (script : MetricScript)
  | readChunk
  | readEnd

/-- Reading the end of a file, the collector parses what it has read. -/
def System.parsed (client : Client) (σ : System) (file : MetricScript) (buffer : List Char)
    (left : List MetricScript) : System :=
  match parseMetrics client file.path buffer σ.registry with
  | (none, r) => { σ with collector := .pending left, registry := r }
  | (some x, r) => { σ with collector := .dead x, registry := r }

inductive Step (client : Client) (σ : System) : Action → System → Prop
  | truncate {script : MetricScript} {h : Host}
      (hw : ∀ h left, σ.writers script ≠ .writing h left) :
      Step client σ (.truncate script h) { σ with
        files := Function.update σ.files script (some [])
        writers := Function.update σ.writers script (.writing h (script.pieces h)) }
  | append {script : MetricScript} {h : Host} {piece text : List Char} {left : List (List Char)}
      (hw : σ.writers script = .writing h (piece :: left)) (hf : σ.files script = some text) :
      Step client σ (.append script) { σ with
        files := Function.update σ.files script (some (text ++ piece))
        writers := Function.update σ.writers script (.writing h left) }
  | finish {script : MetricScript} {h : Host} (hw : σ.writers script = .writing h []) :
      Step client σ (.finish script) { σ with
        writers := Function.update σ.writers script .idle
        completed := Function.update σ.completed script (h :: σ.completed script) }
  | cutOff {script : MetricScript} {h : Host} {left : List (List Char)}
      (hw : σ.writers script = .writing h left) :
      Step client σ (.cutOff script) { σ with
        writers := Function.update σ.writers script .cutOff }
  | listFiles {files : List MetricScript} (hc : σ.collector = .listing)
      (hf : ∀ file, file ∈ files ↔ (σ.files file).isSome) (hn : files.Nodup) :
      Step client σ .listFiles { σ with collector := .pending files }
  | sleep (hc : σ.collector = .pending []) :
      Step client σ .sleep { σ with collector := .listing }
  | openFile {file : MetricScript} {left : List MetricScript}
      (hc : σ.collector = .pending (file :: left)) :
      Step client σ (.openFile file) { σ with
        collector := if (σ.files file).isSome then .reading file [] left else .dead .fileNotFound }
  | readChunk {file : MetricScript} {buffer chunk text : List Char} {left : List MetricScript}
      (hc : σ.collector = .reading file buffer left) (hf : σ.files file = some text)
      (hne : chunk ≠ []) (hchunk : chunk <+: text.drop buffer.length) :
      Step client σ .readChunk { σ with collector := .reading file (buffer ++ chunk) left }
  | readEnd {file : MetricScript} {buffer text : List Char} {left : List MetricScript}
      (hc : σ.collector = .reading file buffer left) (hf : σ.files file = some text)
      (hend : text.length ≤ buffer.length) :
      Step client σ .readEnd (σ.parsed client file buffer left)

/-- The states of the runs whose steps are all allowed. -/
def Reach (client : Client) (allowed : System → Action → Prop) : System → Prop :=
  Relation.ReflTransGen (fun σ τ => ∃ a, allowed σ a ∧ Step client σ a τ) System.start

section Reach

variable {client : Client} {allowed : System → Action → Prop} {σ τ : System} {a : Action}

theorem Reach.start : Reach client allowed System.start := .refl

theorem Reach.step (h : Reach client allowed σ) (hs : Step client σ a τ) (ha : allowed σ a) :
    Reach client allowed τ := Relation.ReflTransGen.tail h ⟨a, ha, hs⟩

end Reach

/-- The value is one that a script wrote for the metric in a snapshot that it finished. -/
def Snapshotted (completed : MetricScript → List Host) (name : String) (value : Json) : Prop :=
  ∃ script, ∃ h ∈ completed script, ∃ literal, value = .number literal ∧
    (name, literal) ∈ script.metrics h

/-- The loop has not ended, and what is published comes from finished snapshots. -/
def Robust (σ : System) : Prop :=
  (∀ x, σ.collector ≠ .dead x) ∧ ∀ gauge ∈ σ.registry.metricObjectList, ∀ value,
    gauge.value = some value → Snapshotted σ.completed gauge.name value

end Yggdrasil.Exporter
