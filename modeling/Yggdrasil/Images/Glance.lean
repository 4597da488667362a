import Yggdrasil.Library.Process
import Yggdrasil.Python.Text

/-! The two scripts that replace an image in Glance, `upload_image` of the Omarchy image builder
and `create_openstack_linux_image` of the image helpers, and what Glance may answer them. The
state is the list of images that bear the one name that the scripts are run with. -/

namespace Yggdrasil.Images

open Effect

inductive Status where
  | queued | saving | uploading | importing | active | deactivated | killed | pendingDelete
  | deleted
  deriving DecidableEq

def Status.name : Status → String
  | queued => "queued"
  | saving => "saving"
  | uploading => "uploading"
  | importing => "importing"
  | active => "active"
  | deactivated => "deactivated"
  | killed => "killed"
  | pendingDelete => "pending_delete"
  | deleted => "deleted"

structure Image where
  id : String
  status : Status
  id_ne : id ≠ ""
  deriving DecidableEq

abbrev Glance := List Image

def Glance.ids (s : Glance) : List String := s.map Image.id

/-! ### Calls -/

/-- The commands of the image helpers that do not reach Glance. -/
inductive Host where
  | prepareOpenstack
  | removeFiles (pattern : String)
  | wget (url target : String)
  | decompress (file : String)
  | runLinuxCmd (imagePath cmd mntArgs : String)
  | copyFiles (imagePath sourceDir targetDir mntArgs : String)
  | convert (source target : String)
  | sleep (seconds : Nat)
  deriving DecidableEq

/-- The OpenStack commands; `showName` is `image show NAME -f value -c id`, `showStatus` asks for
the status of an image given by its ID. -/
inductive Call where
  | showName
  | showStatus (imageId : String)
  | create (arguments : List String)
  | delete (imageId : String)
  | host (command : Host)
  deriving DecidableEq

def Answer : Call → Type
  | .showName => String
  | .showStatus _ => Status
  | .create _ => String
  | .delete _ => Unit
  | .host _ => Unit

/-- Why a script ends: it says so on stderr, or a command failed under `set -e`. -/
inductive Exit where
  | message (text : String)
  | failed
  deriving DecidableEq

abbrev Script := Process Call Answer Exit

namespace Script

def showName : Script String := Process.perform Call.showName

def showStatus (imageId : String) : Script Status := Process.perform (Call.showStatus imageId)

def create (arguments : List String) : Script String := Process.perform (Call.create arguments)

def delete (imageId : String) : Script Unit := Process.perform (Call.delete imageId)

def host (command : Host) : Script Unit := Process.perform (Call.host command)

/-- `command || true`. -/
def orTrue (p : Script Unit) : Script Unit := p.handle fun _ => pure ()

/-- The condition of an `if`, where a failing command does not end the script. -/
def succeeds {α : Type} (p : Script α) : Script Bool :=
  (p >>= fun _ => pure true).handle fun _ => pure false

end Script

open Script

def die {α : Type} (text : String) : Script α := .raise (.message ("ERROR: " ++ text))

/-! ### The Omarchy image builder -/

def isDigits (cs : List Char) : Bool := !cs.isEmpty && cs.all Char.isDigit

/-- `^[1-9][0-9]*$`. -/
def validPositiveInteger (s : String) : Bool := isDigits s.toList && s.toList.head? != some '0'

/-- `^[0-9]+(\.[0-9]+)*$`. -/
def validVersion (s : String) : Bool := (s.toList.splitOn '.').all isDigits

/-- `awk -F= '$1 == "KEY" { print $2; exit }'`. -/
def metadataField (key : String) (file : List String) : String :=
  match file.find? fun line => decide ((line.toList.splitOn '=').head? = some key.toList) with
  | some line => String.ofList ((line.toList.splitOn '=').getD 1 [])
  | none => ""

/-- What `upload_image` reads: the settings of the builder, and its two arguments, the metadata
file by its lines. -/
structure Upload where
  imageName : String
  imageVisibility : String
  installFirmware : String
  artifact : String
  metadata : List String

def Upload.imageFormat (u : Upload) : String := metadataField "IMAGE_FORMAT" u.metadata

def Upload.imageVersion (u : Upload) : String := metadataField "OMARCHY_VERSION" u.metadata

def Upload.minDisk (u : Upload) : String := metadataField "DISK_SIZE_GIB" u.metadata

def Upload.visibilityArgs (u : Upload) : List String :=
  if u.imageVisibility = "public" then ["--public"] else ["--private"]

def Upload.imageArgs (u : Upload) : List String :=
  ["image", "create", u.imageName, "--file", u.artifact, "--disk-format", u.imageFormat,
    "--container-format", "bare", "--min-disk", u.minDisk] ++ u.visibilityArgs ++
  ["--property", "os_distro=omarchy", "--property", "os_type=linux",
    "--property", "os_version=" ++ u.imageVersion, "--property", "os_admin_user=omarchy",
    "--property", "hw_qemu_guest_agent=yes",
    "--property", "hw_firmware_type=" ++ u.installFirmware, "--property", "hw_machine_type=q35",
    "--property", "hw_disk_bus=virtio", "--property", "cloud_init=enabled",
    "--property", "omarchy_version=" ++ u.imageVersion, "--tag", "omarchy", "--tag", "desktop",
    "--tag", "cloud-init", "--tag", "qemu-guest-agent", "--progress"]

/-- The loop of `wait_for_glance_active` with so many attempts left. -/
def waitAttempts (imageId : String) : Nat → Script Unit
  | 0 => die ("Uploaded image " ++ imageId ++ " did not become active")
  | n + 1 => do
    -- a failing command leaves the status empty, which is none of the cases
    let status ← (showStatus imageId >>= fun st => pure (some st)).handle fun _ => pure none
    match status with
    | some .active => pure ()
    | some .killed =>
      die ("Uploaded image " ++ imageId ++ " entered terminal status " ++ Status.killed.name)
    | some .deleted =>
      die ("Uploaded image " ++ imageId ++ " entered terminal status " ++ Status.deleted.name)
    | _ => do
      host (.sleep 5)
      waitAttempts imageId n

def waitForGlanceActive (imageId : String) : Script Unit := waitAttempts imageId 120

/-- `existing_id=""; if image show NAME; then existing_id="$(image show NAME …)"; fi`, which both
scripts begin with. -/
def existingId : Script String := do
  if ← succeeds showName then showName else pure ""

def uploadImage (u : Upload) : Script Unit := do
  if ¬(u.imageFormat = "raw" ∨ u.imageFormat = "qcow2") then
    die "Invalid image format in build metadata"
  else if ¬validPositiveInteger u.minDisk then
    die "Invalid minimum disk size in build metadata"
  else if ¬validVersion u.imageVersion then
    die "Invalid Omarchy version in build metadata"
  else
    host .prepareOpenstack
    let existing ← existingId
    let new ← create (u.imageArgs ++ ["-f", "value", "-c", "id"])
    if new = "" then die "OpenStack did not return an image ID"
    else
      waitForGlanceActive new
      if existing ≠ "" ∧ existing ≠ new then
        if ← succeeds (delete existing) then pure ()
        else
          orTrue (delete new)
          die ("Unable to replace existing image " ++ existing)
      else pure ()

/-! ### The image helpers -/

/-- The words that an unquoted variable is split into. -/
def words (s : String) : List String :=
  ((s.toList.splitOnP Python.isSpace).filter fun w => !w.isEmpty).map String.ofList

/-- The arguments of `create_openstack_linux_image`. -/
structure Rebuild where
  imageUrl : String
  imageName : String
  cmd : String
  extraArgs : String
  xzDecompress : String
  mountArgs : String
  injectionSourceDir : String
  injectionTargetDir : String
  forceRebuild : String

/-- `$image_name.$image_format`. -/
def Rebuild.imagePath (r : Rebuild) : String := r.imageName ++ ".qcow2"

def Rebuild.raw (r : Rebuild) : String := r.imageName ++ ".raw"

def Rebuild.removeFiles (r : Rebuild) : Script Unit := host (.removeFiles (r.imageName ++ "*"))

def Rebuild.download (r : Rebuild) : Script Unit :=
  if r.xzDecompress = "" then host (.wget r.imageUrl r.imagePath)
  else do
    host (.wget r.imageUrl (r.imagePath ++ ".xz"))
    host (.decompress (r.imagePath ++ ".xz"))

def Rebuild.inject (r : Rebuild) : Script Unit :=
  if r.injectionSourceDir = "" then pure ()
  else host (.copyFiles r.imagePath r.injectionSourceDir r.injectionTargetDir r.mountArgs)

/-- The part that makes the raw file. -/
def Rebuild.build (r : Rebuild) : Script Unit := do
  r.removeFiles
  r.download
  host (.runLinuxCmd r.imagePath r.cmd r.mountArgs)
  r.inject
  host (.convert r.imagePath r.raw)

/-- The part that uploads it. -/
def Rebuild.publish (r : Rebuild) (existing : String) : Script Unit := do
  if existing = "" then
    let _ ← create (["image", "create"] ++ words r.imageName ++ ["--file"] ++ words r.raw ++
      words r.extraArgs)
    pure ()
  else
    let new ← create (["image", "create", r.imageName, "--file", r.raw, "--progress"] ++
      words r.extraArgs ++ ["-f", "value", "-c", "id"])
    if new = "" then
      r.removeFiles
      .raise .failed
    else if ← succeeds (delete existing) then pure ()
    else
      orTrue (delete new)
      r.removeFiles
      .raise (.message ("Unable to replace existing image " ++ existing ++
        "; deleting replacement " ++ new))

def createOpenstackLinuxImage (r : Rebuild) : Script Unit := do
  let existing ← existingId
  if existing = "" ∨ r.forceRebuild ≠ "" then
    r.build
    r.publish existing
    r.removeFiles
  else pure ()

/-- A run of one of the scripts. -/
inductive Run where
  | upload (u : Upload)
  | rebuild (r : Rebuild)

def Run.script : Run → Script Unit
  | .upload u => uploadImage u
  | .rebuild r => createOpenstackLinuxImage r

/-! ### What Glance does -/

/-- Time passes: images come into other statuses, but an active image stays active. -/
def Progress (s s' : Glance) : Prop :=
  List.Forall₂ (fun i j => j.id = i.id ∧ (i.status = .active → j.status = .active)) s s'

/-- What a call may be answered, and what it leaves. A lookup of the name needs exactly one image.
Every call may fail, and one that fails may have been carried out or not. -/
inductive Step : World Glance Call Answer Exit
  | showName {s s' : Glance} {i : Image} (hp : Progress s s') (hi : s' = [i]) :
      Step s .showName (.ok i.id) s'
  | showStatus {s s' : Glance} {i : Image} (hp : Progress s s') (hi : i ∈ s') :
      Step s (.showStatus i.id) (.ok i.status) s'
  | create {s s' : Glance} {i : Image} {arguments : List String} {output : String}
      (hp : Progress s s') (hi : i.id ∉ s.ids) (ho : output = i.id ∨ output = "") :
      Step s (.create arguments) (.ok output) (s' ++ [i])
  | createFailed {s s' : Glance} {i : Image} {arguments : List String} {x : Exit}
      (hp : Progress s s') (hi : i.id ∉ s.ids) :
      Step s (.create arguments) (.error x) (s' ++ [i])
  | delete {s s' : Glance} {imageId : String} (hp : Progress s s') :
      Step s (.delete imageId) (.ok ()) (s'.filter fun i => i.id ≠ imageId)
  | deleteFailed {s s' : Glance} {imageId : String} {x : Exit} (hp : Progress s s') :
      Step s (.delete imageId) (.error x) (s'.filter fun i => i.id ≠ imageId)
  | host {s s' : Glance} {command : Host} (hp : Progress s s') :
      Step s (.host command) (.ok ()) s'
  | failed {s s' : Glance} {c : Call} {x : Exit} (hp : Progress s s') : Step s c (.error x) s'

end Yggdrasil.Images
