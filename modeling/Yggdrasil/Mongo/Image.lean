import Mathlib.Data.List.TakeWhile
import Yggdrasil.Python.Text

/-! The container image of MongoDB. The script that builds the guest image resolves a
reference and writes it into the image; the guest agent reads the file and, for its own part,
decides whether the reference has a tag. A colon is a tag's only behind the last slash: before
it, the colon is that of a registry's port. -/

namespace Yggdrasil.Mongo

open Python

/-! ### Building the guest image -/

/-- The variables that choose the image; each may be unset. -/
structure ImageVariables where
  guestImageName : Option String
  containerImage : Option String
  version : Option String

/-- `${variable:-default}`, and `value or default`. -/
def orDefault (value : Option String) (default : String) : String :=
  match value with
  | some text => if text = "" then default else text
  | none => default

/-- The letters and digits, and the given characters. -/
def inBrackets (others : List Char) (c : Char) : Bool := c.isAlphanum || others.contains c

def validImageName (cs : List Char) : Bool := !cs.isEmpty && cs.all (inBrackets ['.', '_', '-'])

def validContainerImage (cs : List Char) : Bool :=
  !cs.isEmpty && cs.all (inBrackets ['.', '_', '/', '@', ':', '-'])

def validMongodbVersion : List Char → Bool
  | [] => false
  | c :: cs => c.isDigit && cs.all (inBrackets ['.', '_', '-'])

/-- `${text##*/}`: the longest prefix that ends in a slash is removed. -/
def removeLongestPrefix : List Char → List Char
  | [] => []
  | c :: cs => if '/' ∈ cs then removeLongestPrefix cs else if c = '/' then cs else c :: cs

namespace ImageVariables

variable (v : ImageVariables)

def imageName : String :=
  orDefault v.guestImageName "trove-master-guest-ubuntu-noble-mongodb"

def mongodbImage : String := orDefault v.containerImage "mongo"

def mongodbVersion : String := orDefault v.version "8.0"

/-- The reference that the script resolves. -/
def mongodbImageRef : Except String String :=
  if !validImageName v.imageName.toList || !validContainerImage v.mongodbImage.toList ||
      !validMongodbVersion v.mongodbVersion.toList then
    .error "Invalid MongoDB guest image name, container image, or version"
  else if '@' ∉ v.mongodbImage.toList ∧ ':' ∉ removeLongestPrefix v.mongodbImage.toList then
    .ok (v.mongodbImage ++ ":" ++ v.mongodbVersion)
  else .ok v.mongodbImage

end ImageVariables

/-- The word that single quotes enclose, from behind the first of them. -/
def quotedWord (cs : List Char) : List Char := cs.takeWhile (· != '\'')

/-- What `printf '%s\n' 'reference'` writes to the file of the guest image. -/
def imageFile (reference : String) : String :=
  String.ofList (quotedWord (reference.toList ++ ['\''])) ++ "\n"

/-! ### The guest agent -/

/-- `text.rsplit("/", 1)[-1]`. -/
def rsplitLast (cs : List Char) : List Char := (cs.reverse.takeWhile (· != '/')).reverse

/-- The image that the guest runs; the file may be missing. -/
def guestImage (file datastoreVersion : Option String) : String :=
  let image := orDefault (file.map strip) "mongo"
  if ':' ∉ rsplitLast image.toList ∧ '@' ∉ image.toList then
    image ++ ":" ++ orDefault datastoreVersion "8.0"
  else image

/-! ### Tags -/

/-- The reference ends in a tag: a colon that no slash follows. -/
def HasTag (reference name tag : List Char) : Prop := reference = name ++ ':' :: tag ∧ '/' ∉ tag

def Tagged (reference : List Char) : Prop := ∃ name tag, HasTag reference name tag

def HasDigest (reference : List Char) : Prop := '@' ∈ reference

theorem tagged_cons {c : Char} {cs : List Char} :
    Tagged (c :: cs) ↔ c = ':' ∧ '/' ∉ cs ∨ Tagged cs := by
  constructor
  · rintro ⟨_ | ⟨d, name⟩, tag, he, ht⟩
    · obtain ⟨rfl, rfl⟩ := List.cons.inj he
      exact .inl ⟨rfl, ht⟩
    · exact .inr ⟨name, tag, (List.cons.inj he).2, ht⟩
  · rintro (⟨rfl, ht⟩ | ⟨name, tag, rfl, ht⟩)
    · exact ⟨[], cs, rfl, ht⟩
    · exact ⟨c :: name, tag, rfl, ht⟩

/-- Without a slash, every colon is a tag's. -/
theorem tagged_iff_of_notMem {cs : List Char} (h : '/' ∉ cs) : Tagged cs ↔ ':' ∈ cs := by
  constructor
  · rintro ⟨name, tag, rfl, _⟩
    simp
  · intro hc
    obtain ⟨name, tag, rfl⟩ := List.append_of_mem hc
    exact ⟨name, tag, rfl, fun hs => h (by simp [hs])⟩

theorem colon_mem_removeLongestPrefix {cs : List Char} :
    ':' ∈ removeLongestPrefix cs ↔ Tagged cs := by
  induction cs with
  | nil => simp [removeLongestPrefix, Tagged, HasTag]
  | cons c cs ih =>
    simp only [removeLongestPrefix]
    split_ifs with hs hc
    · rw [ih, tagged_cons]
      simp [hs]
    · rw [tagged_cons, tagged_iff_of_notMem hs]
      simp [hc]
    · exact (tagged_iff_of_notMem (by simpa [eq_comm, hs] using hc)).symm

theorem mem_takeWhile_iff {p : Char → Bool} {c : Char} (hc : p c = true) {cs : List Char} :
    c ∈ cs.takeWhile p ↔ ∃ pre post, cs = pre ++ c :: post ∧ ∀ d ∈ pre, p d = true := by
  constructor
  · intro h
    obtain ⟨pre, post, he⟩ := List.append_of_mem h
    refine ⟨pre, post ++ cs.dropWhile p, ?_, fun d hd => ?_⟩
    · rw [← List.cons_append, ← List.append_assoc, ← he, List.takeWhile_append_dropWhile]
    · exact List.mem_takeWhile_imp (he ▸ List.mem_append_left _ hd)
  · rintro ⟨pre, post, rfl, hpre⟩
    rw [List.takeWhile_append_of_pos hpre, List.takeWhile_cons_of_pos hc]
    simp

theorem colon_mem_rsplitLast {cs : List Char} : ':' ∈ rsplitLast cs ↔ Tagged cs := by
  unfold rsplitLast
  rw [List.mem_reverse, mem_takeWhile_iff (by decide)]
  constructor
  · rintro ⟨pre, post, he, hpre⟩
    refine ⟨post.reverse, pre.reverse, ?_, fun hs => ?_⟩
    · rw [← List.reverse_reverse cs, he]
      simp
    · simpa using hpre _ (List.mem_reverse.1 hs)
  · rintro ⟨name, tag, rfl, ht⟩
    refine ⟨tag.reverse, name.reverse, by simp, fun d hd => ?_⟩
    simpa using fun he : d = '/' => ht (he ▸ List.mem_reverse.1 hd)

/-! ### The file of the guest image -/

/-- What the script accepts has no character that quoting or stripping would touch. -/
def Clean (cs : List Char) : Prop := ∀ c ∈ cs, c ≠ '\'' ∧ isSpace c = false

theorem quotedWord_of_clean {cs : List Char} (h : Clean cs) : quotedWord (cs ++ ['\'']) = cs := by
  unfold quotedWord
  rw [List.takeWhile_append_of_pos fun c hc => by simpa using (h c hc).1]
  simp

theorem dropWhile_of_clean {cs : List Char} (h : Clean cs) : cs.dropWhile isSpace = cs := by
  cases cs with
  | nil => rfl
  | cons c cs => rw [List.dropWhile_cons_of_neg (by simp [(h c List.mem_cons_self).2])]

theorem stripList_line {cs : List Char} (h : Clean cs) :
    stripList isSpace (cs ++ ['\n']) = cs := by
  have hreverse : Clean cs.reverse := fun c hc => h c (List.mem_reverse.1 hc)
  unfold stripList
  cases cs with
  | nil => decide
  | cons c cs =>
    rw [List.cons_append, List.dropWhile_cons_of_neg (by simp [(h c List.mem_cons_self).2]),
      ← List.cons_append, List.reverse_append, List.reverse_singleton, List.singleton_append,
      List.dropWhile_cons_of_pos (by decide), dropWhile_of_clean hreverse, List.reverse_reverse]

theorem isSpace_of_isAlphanum {c : Char} (h : c.isAlphanum = true) : isSpace c = false := by
  rw [isAlphanum_iff, isUpper_iff_toNat, isLower_iff_toNat, Char.isDigit_iff_toNat] at h
  simp only [show 'A'.toNat = 65 from rfl, show 'Z'.toNat = 90 from rfl,
    show 'a'.toNat = 97 from rfl, show 'z'.toNat = 122 from rfl,
    show '0'.toNat = 48 from rfl, show '9'.toNat = 57 from rfl] at h
  simp only [isSpace, Bool.or_eq_false_iff, Bool.and_eq_false_iff, decide_eq_false_iff_not,
    beq_eq_false_iff_ne]
  omega

theorem clean_of_all {others cs : List Char}
    (ho : others.all (fun c => c != '\'' && !isSpace c) = true)
    (h : cs.all (inBrackets others) = true) : Clean cs := by
  intro c hc
  rcases Bool.or_eq_true_iff.1 (List.all_eq_true.1 h c hc) with ha | hm
  · exact ⟨by rintro rfl; exact absurd ha (by decide), isSpace_of_isAlphanum ha⟩
  · simpa using List.all_eq_true.1 ho c (by simpa using hm)

theorem guestImage_imageFile {reference : String} (h : Clean reference.toList)
    (hr : Tagged reference.toList ∨ HasDigest reference.toList)
    (datastoreVersion : Option String) :
    guestImage (some (imageFile reference)) datastoreVersion = reference := by
  have hstrip : strip (imageFile reference) = reference := by
    unfold strip imageFile
    rw [quotedWord_of_clean h, String.toList_append, String.toList_ofList]
    exact (congrArg String.ofList (stripList_line h)).trans String.ofList_toList
  have hne : reference ≠ "" := by
    rintro rfl
    rcases hr with ⟨name, tag, he, _⟩ | hd
    · simp at he
    · simp [HasDigest] at hd
  unfold guestImage
  simp only [Option.map_some, hstrip, orDefault, if_neg hne]
  refine if_neg fun hn => ?_
  rw [colon_mem_rsplitLast] at hn
  exact hr.elim hn.1 hn.2

/-! ### The script and the guest agree -/

theorem Clean.append {cs ds : List Char} (hc : Clean cs) (hd : Clean ds) : Clean (cs ++ ds) :=
  fun c hm => (List.mem_append.1 hm).elim (hc c) (hd c)

theorem all_of_validContainerImage {cs : List Char} (h : validContainerImage cs = true) :
    cs.all (inBrackets ['.', '_', '/', '@', ':', '-']) = true := by
  unfold validContainerImage at h
  rw [Bool.and_eq_true] at h
  exact h.2

theorem all_of_validMongodbVersion {cs : List Char} (h : validMongodbVersion cs = true) :
    cs.all (inBrackets ['.', '_', '-']) = true := by
  cases cs with
  | nil => cases h
  | cons c cs =>
    rw [validMongodbVersion, Bool.and_eq_true] at h
    have hc : inBrackets ['.', '_', '-'] c = true :=
      Bool.or_eq_true_iff.2 (.inl (isAlphanum_iff.2 (.inr (.inr h.1))))
    rw [List.all_cons, hc, h.2]
    rfl

theorem notMem_of_all {others cs : List Char} {c : Char} (hc : inBrackets others c = false)
    (h : cs.all (inBrackets others) = true) : c ∉ cs := by
  intro hm
  have := List.all_eq_true.1 h c hm
  rw [hc] at this
  cases this

/-- Behind a name without a tag, the appended tag is the only one. -/
theorem hasTag_append_iff {image version name tag : List Char} (hi : ¬Tagged image)
    (hs : '/' ∉ version) (hc : ':' ∉ version) :
    HasTag (image ++ ':' :: version) name tag ↔ name = image ∧ tag = version := by
  constructor
  · rintro ⟨he, ht⟩
    rcases List.append_eq_append_iff.1 he with ⟨mid, hname, htag⟩ | ⟨mid, himage, htag⟩
    · cases mid with
      | nil =>
        rw [List.nil_append] at htag
        exact ⟨by simpa using hname, (List.cons.inj htag).2.symm⟩
      | cons c mid =>
        -- the tag found would start inside the version
        exact absurd ((List.cons.inj htag).2 ▸ by simp) hc
    · cases mid with
      | nil =>
        rw [List.nil_append] at htag
        exact ⟨by simpa using himage.symm, (List.cons.inj htag).2⟩
      | cons c mid =>
        -- the tag found would start inside the name
        obtain ⟨rfl, rfl⟩ := List.cons.inj htag
        exact absurd ⟨name, mid, himage, fun hm => ht (by simp [hm])⟩ hi
  · rintro ⟨rfl, rfl⟩
    exact ⟨rfl, hs⟩

/-- The guest runs the reference that the script resolved, whatever datastore version it is
told: an image that names a tag or a digest as it is, any other with the version as its only
tag. -/
theorem guestImage_mongodbImageRef (v : ImageVariables)
    (hn : validImageName v.imageName.toList = true)
    (hi : validContainerImage v.mongodbImage.toList = true)
    (hv : validMongodbVersion v.mongodbVersion.toList = true) :
    ∃ reference, v.mongodbImageRef = .ok reference ∧
      (∀ datastoreVersion, guestImage (some (imageFile reference)) datastoreVersion = reference) ∧
      (Tagged v.mongodbImage.toList ∨ HasDigest v.mongodbImage.toList →
        reference = v.mongodbImage) ∧
      (¬Tagged v.mongodbImage.toList → ¬HasDigest v.mongodbImage.toList →
        ¬HasDigest reference.toList ∧ ∀ name tag, HasTag reference.toList name tag ↔
          name = v.mongodbImage.toList ∧ tag = v.mongodbVersion.toList) := by
  have hclean := clean_of_all (by decide) (all_of_validContainerImage hi)
  have hversion := all_of_validMongodbVersion hv
  unfold ImageVariables.mongodbImageRef
  simp only [hn, hi, hv, Bool.not_true, Bool.or_self, Bool.false_eq_true, if_false]
  split_ifs with hu <;> rw [colon_mem_removeLongestPrefix] at hu
  · have htoList : (v.mongodbImage ++ ":" ++ v.mongodbVersion).toList =
        v.mongodbImage.toList ++ ':' :: v.mongodbVersion.toList := by
      rw [String.toList_append, String.toList_append, List.append_assoc]
      rfl
    have hslash := notMem_of_all (c := '/') (by decide) hversion
    have hcolon := notMem_of_all (c := ':') (by decide) hversion
    have hat : ¬HasDigest (v.mongodbImage ++ ":" ++ v.mongodbVersion).toList := by
      rw [htoList]
      simpa [HasDigest] using ⟨hu.1, notMem_of_all (c := '@') (by decide) hversion⟩
    refine ⟨_, rfl, guestImage_imageFile ?_ (.inl ?_), fun h => ?_, fun ht _ => ⟨hat, ?_⟩⟩
    · rw [htoList]
      have hsign : Clean [':'] := fun c hc => by rw [List.mem_singleton.1 hc]; decide
      exact hclean.append (hsign.append (clean_of_all (by decide) hversion))
    · rw [htoList]
      exact ⟨_, _, rfl, hslash⟩
    · exact absurd h (not_or.2 ⟨hu.2, hu.1⟩)
    · intro name tag
      rw [htoList]
      exact hasTag_append_iff hu.2 hslash hcolon
  · have hcomplete : Tagged v.mongodbImage.toList ∨ HasDigest v.mongodbImage.toList := by
      by_contra h
      rw [not_or] at h
      exact hu ⟨h.2, h.1⟩
    exact ⟨_, rfl, guestImage_imageFile hclean hcomplete, fun _ => rfl,
      fun ht hd => absurd hcomplete (not_or.2 ⟨ht, hd⟩)⟩

/-- A registry with a port: the colon of the port is no tag. -/
theorem guestImage_mongodbImageRef_port :
    let v : ImageVariables := ⟨none, some "registry.local:5000/db/mongo", some "7.0"⟩
    ∃ reference, v.mongodbImageRef = .ok reference ∧
      (∀ datastoreVersion, guestImage (some (imageFile reference)) datastoreVersion = reference) ∧
      (Tagged v.mongodbImage.toList ∨ HasDigest v.mongodbImage.toList →
        reference = v.mongodbImage) ∧
      (¬Tagged v.mongodbImage.toList → ¬HasDigest v.mongodbImage.toList →
        ¬HasDigest reference.toList ∧ ∀ name tag, HasTag reference.toList name tag ↔
          name = v.mongodbImage.toList ∧ tag = v.mongodbVersion.toList) :=
  guestImage_mongodbImageRef _ (by decide) (by decide) (by decide)

end Yggdrasil.Mongo
