import Mathlib.Data.List.TakeWhile

/-! The URL functions of the Python standard library: `urlsplit`, `urlparse`, `urlunsplit` and
`urljoin`. The check of a bracketed host and of the normal form of a network location is a
parameter; a URL it refuses raises `ValueError`, which is `none` here. -/

namespace Yggdrasil.Python.Url

abbrev Text := List Char

structure Parts where
  scheme : Text
  netloc : Text
  path : Text
  query : Text
  fragment : Text
  deriving DecidableEq

def usesRelative : List String :=
  ["", "ftp", "http", "gopher", "nntp", "imap", "wais", "file", "https", "shttp", "mms",
    "prospero", "rtsp", "rtsps", "rtspu", "sftp", "svn", "svn+ssh", "ws", "wss"]

def usesNetloc : List String :=
  ["", "ftp", "http", "gopher", "nntp", "telnet", "imap", "wais", "file", "mms", "https", "shttp",
    "snews", "prospero", "rtsp", "rtsps", "rtspu", "rsync", "svn", "svn+ssh", "sftp", "nfs", "git",
    "git+ssh", "ws", "wss"]

def usesParams : List String :=
  ["", "ftp", "hdl", "prospero", "http", "imap", "https", "shttp", "rtsp", "rtsps", "rtspu", "sip",
    "sips", "mms", "sftp", "tel"]

def isSchemeChar (c : Char) : Bool := c.isAlphanum || c == '+' || c == '-' || c == '.'

/-- Leading control characters and spaces, and every tab and line end, are dropped. -/
def clean (url : Text) : Text :=
  (url.dropWhile fun c => decide (c.toNat ≤ 0x20)).filter fun c =>
    !(c == '\t' || c == '\r' || c == '\n')

/-- The text before the first such character, and the text after it. -/
def partition (c : Char) (text : Text) : Text × Text :=
  (text.takeWhile (· != c), (text.dropWhile (· != c)).tail)

def splitScheme (scheme url : Text) : Text × Text :=
  let head := url.takeWhile (· != ':')
  if url.contains ':' && (head.head?.any Char.isAlpha) && head.all isSchemeChar then
    (head.map Char.toLower, (partition ':' url).2)
  else (scheme, url)

def isNetlocChar (c : Char) : Bool := !(c == '/' || c == '?' || c == '#')

def splitNetloc : Text → Text × Text
  | '/' :: '/' :: rest => (rest.takeWhile isNetlocChar, rest.dropWhile isNetlocChar)
  | url => ([], url)

variable (checkNetloc : Text → Bool)

def urlsplit (url scheme : Text) : Option Parts :=
  let (scheme, url) := splitScheme (clean scheme) (clean url)
  let (netloc, url) := splitNetloc url
  if netloc.contains '[' != netloc.contains ']' || !checkNetloc netloc then none
  else
    let (url, fragment) := partition '#' url
    let (path, query) := partition '?' url
    some ⟨scheme, netloc, path, query, fragment⟩

/-- The parameters follow the first semicolon of the last segment of the path. -/
def splitParams (scheme path : Text) : Text × Text :=
  if usesParams.contains (String.ofList scheme) then
    let last := (path.reverse.takeWhile (· != '/')).reverse
    let start := path.take (path.length - last.length)
    (start ++ (partition ';' last).1, (partition ';' last).2)
  else (path, [])

def urlunsplit (p : Parts) : Text :=
  let url :=
    if p.netloc ≠ [] ∨ (p.scheme ≠ [] ∧ usesNetloc.contains (String.ofList p.scheme)) ∨
        p.path.take 2 = ['/', '/'] then
      ['/', '/'] ++ p.netloc ++
        (if p.path ≠ [] ∧ p.path.head? ≠ some '/' then '/' :: p.path else p.path)
    else p.path
  let url := if p.scheme ≠ [] then p.scheme ++ ':' :: url else url
  let url := if p.query ≠ [] then url ++ '?' :: p.query else url
  if p.fragment ≠ [] then url ++ '#' :: p.fragment else url

/-- The six components as they are put together again. -/
def urlunparse (p : Parts) (params : Text) : Text :=
  urlunsplit { p with path := if params ≠ [] then p.path ++ ';' :: params else p.path }

def segmentsOf (bpath path : Text) : List Text :=
  if path.head? = some '/' then path.splitOn '/'
  else
    let base := bpath.splitOn '/'
    let base := if base.getLast? = some [] then base else base.dropLast
    match base ++ path.splitOn '/' with
    | first :: rest => first :: rest.dropLast.filter (· ≠ []) ++ rest.getLast?.toList
    | [] => []

/-- The dot segments are resolved; a reference never climbs above the root. -/
def resolve (segments : List Text) : List Text :=
  let resolved := segments.foldl (fun path s =>
    if s = ['.', '.'] then path.dropLast else if s = ['.'] then path else path ++ [s]) []
  if segments.getLast? = some ['.'] ∨ segments.getLast? = some ['.', '.'] then resolved ++ [[]]
  else resolved

def urljoin (base url : Text) : Option Text :=
  if base = [] then some url
  else if url = [] then some base
  else do
    let b ← urlsplit checkNetloc base []
    let p ← urlsplit checkNetloc url b.scheme
    if p.scheme ≠ b.scheme ∨ ¬usesRelative.contains (String.ofList p.scheme) then return url
    let (bpath, bparams) := splitParams b.scheme b.path
    let (path, params) := splitParams p.scheme p.path
    if usesNetloc.contains (String.ofList p.scheme) ∧ p.netloc ≠ [] then
      return urlunparse { p with path := path } params
    let netloc := if usesNetloc.contains (String.ofList p.scheme) then b.netloc else p.netloc
    if path = [] ∧ params = [] then
      let query := if p.query = [] then b.query else p.query
      return urlunparse { p with netloc := netloc, path := bpath, query := query } bparams
    let resolved := List.intercalate ['/'] (resolve (segmentsOf bpath path))
    let path := if resolved = [] then ['/'] else resolved
    return urlunparse { p with netloc := netloc, path := path } params

example : urljoin (fun _ => true) "http://zun/v1/".toList "capsules/?marker=2".toList =
    some "http://zun/v1/capsules/?marker=2".toList := by decide +kernel

/-! ### The spelling of a split URL -/

/-- The URL spells the scheme and, after two slashes, the network location, which the path, the
query or the fragment ends. -/
def Spells (scheme netloc url : Text) : Prop :=
  ∃ head rest, clean url = head ++ ':' :: '/' :: '/' :: (netloc ++ rest) ∧
    head.map Char.toLower = scheme ∧ ∀ c ∈ rest.head?, ¬isNetlocChar c

theorem eq_of_partition {c : Char} {text : Text} (h : c ∈ text) :
    text = (text.takeWhile (· != c)) ++ c :: (partition c text).2 := by
  have hne : text.dropWhile (· != c) ≠ [] := by
    intro hnil
    simpa using List.dropWhile_eq_nil_iff.1 hnil c h
  have hhead : (text.dropWhile (· != c)).head hne = c := by
    have := List.head_dropWhile_not (· != c) hne
    simpa using this
  calc text = text.takeWhile (· != c) ++ text.dropWhile (· != c) :=
        List.takeWhile_append_dropWhile.symm
    _ = text.takeWhile (· != c) ++ c :: (partition c text).2 := by
        rw [← List.cons_head_tail hne, hhead]
        rfl

theorem spells_of_splitScheme {url scheme rest : Text}
    (h : splitScheme [] url = (scheme, rest)) (hs : scheme ≠ []) :
    ∃ head, url = head ++ ':' :: rest ∧ head.map Char.toLower = scheme := by
  simp only [splitScheme] at h
  split_ifs at h with hc
  · simp only [Bool.and_eq_true, List.contains_eq_mem, decide_eq_true_eq] at hc
    rw [Prod.mk.injEq] at h
    exact ⟨url.takeWhile (· != ':'), h.2 ▸ eq_of_partition hc.1.1, h.1⟩
  · rw [Prod.mk.injEq] at h
    exact absurd h.1.symm hs

theorem spells_of_splitNetloc {url netloc rest : Text} (h : splitNetloc url = (netloc, rest))
    (hn : netloc ≠ []) :
    url = '/' :: '/' :: (netloc ++ rest) ∧ ∀ c ∈ rest.head?, ¬isNetlocChar c := by
  unfold splitNetloc at h
  split at h
  · rename_i text
    obtain ⟨rfl, rfl⟩ := Prod.mk.inj h
    refine ⟨by rw [List.takeWhile_append_dropWhile], fun c hc => ?_⟩
    have := List.head?_dropWhile_not isNetlocChar text
    rw [Option.mem_def.1 hc] at this
    simpa using this
  · exact absurd (Prod.mk.inj h).1.symm hn

theorem spells_of_urlsplit {url : Text} {p : Parts} (h : urlsplit checkNetloc url [] = some p)
    (hs : p.scheme ≠ []) (hn : p.netloc ≠ []) : Spells p.scheme p.netloc url := by
  unfold urlsplit at h
  rcases hscheme : splitScheme (clean []) (clean url) with ⟨scheme, rest⟩
  rcases hnetloc : splitNetloc rest with ⟨netloc, tail⟩
  simp only [hscheme, hnetloc] at h
  split_ifs at h
  obtain rfl := Option.some.inj h
  obtain ⟨head, hurl, hhead⟩ := spells_of_splitScheme hscheme hs
  obtain ⟨hrest, htail⟩ := spells_of_splitNetloc hnetloc hn
  exact ⟨head, tail, hrest ▸ hurl, hhead, htail⟩

end Yggdrasil.Python.Url
