import Axinite.Foundation.Fallible
import Axinite.Foundation.FileTree
import Axinite.Tools
import Mathlib.Data.List.Infix

/-!
# Path validation of the file tools

Tools that read or write files validate the path first.  With a base directory, the path is
made absolute, links are resolved as far as the path exists, and the result must lie under
the base.

A path is a list of parts with a flag for a leading slash, as the operating system reads it.
The file system answers through the path lookup of the library: `canonicalize` returns the
location of an existing path, `reaches` the location at which the path is read, written or
created.

Main results:

- Theorem `resolved_eq_ofNames`: a validated path consists of names.
- Theorem `nearestAncestor_spec`: the location that is checked for a path that does not
  exist yet.
- Theorem `validated_path_contained`: a validated path leads to a location under the base.
-/

namespace Axinite.Tools.PathUtils

open Foundation.DotSegments List
open Foundation.Fallible
open Foundation.FileTree

/-- The name of a file. -/
abbrev Name := List Char

/-! ## Paths -/

/-- A path; a slash at the end counts as a `.`. -/
structure PathBuf where
  absolute : Bool
  parts : List (PathPart Name)
  deriving DecidableEq

namespace PathBuf

/-- The path with the given text. -/
def ofText (text : List Char) : PathBuf :=
  if text = [] then ⟨false, []⟩
  else ⟨text.head? == some '/', (text.splitOn '/').map toPart⟩

/-- The path that consists of names. -/
def ofNames (absolute : Bool) (names : List Name) : PathBuf :=
  ⟨absolute, names.map .name⟩

/-- The parts without `.`. -/
def components (path : PathBuf) : List (PathPart Name) :=
  path.parts.filter (· ≠ .current)

/-- Append a path; an absolute one replaces the path, and an empty one leaves a slash. -/
def join (path other : PathBuf) : PathBuf :=
  if other.absolute = true ∨ path = ⟨false, []⟩ then other
  else ⟨path.absolute, path.parts ++ if other.parts = [] then [.current] else other.parts⟩

def startsWith (path base : PathBuf) : Bool :=
  path.absolute == base.absolute && base.components.isPrefixOf path.components

end PathBuf

/-- Resolve `.` and `..` without the file system; `..` only removes names. -/
def normalizeLexical (path : PathBuf) : PathBuf :=
  .ofNames path.absolute (resolve [] path.parts)

/-! ## The file system -/

/-- The file tree, the working directory, and the number of links that one lookup may
follow. -/
structure FileSystem where
  tree : DirTree Name
  workingDirectory : Option (List Name)
  maxLinks : Nat

namespace FileSystem

/-- The empty path and a path relative to a removed directory lead nowhere. -/
def lookup (fs : FileSystem) (path : PathBuf) : Outcome Name :=
  if path.absolute = true then walk fs.tree fs.maxLinks [] path.parts
  else if path.parts = [] then .failed
  else
    match fs.workingDirectory with
    | some location => walk fs.tree fs.maxLinks location path.parts
    | none => .failed

/-- The path exists. -/
def isPresent (fs : FileSystem) (path : PathBuf) : Bool :=
  (fs.lookup path).isFound

def canonicalize (fs : FileSystem) (path : PathBuf) : Option PathBuf :=
  match fs.lookup path with
  | .found location _ => some (.ofNames true location)
  | _ => none

def currentDir (fs : FileSystem) : Option PathBuf :=
  fs.workingDirectory.map (.ofNames true)

/-- The location at which the path is read, written or created. -/
def reaches (fs : FileSystem) (path : PathBuf) : Option (List Name) :=
  (fs.lookup path).location

end FileSystem

/-! ## Validation -/

def contains (text needle : List Char) : Bool :=
  decide (needle <:+: text)

/-- The text, in lower case, has an encoded dot or separator. -/
def hasEncodedTraversal (lower : List Char) : Bool :=
  contains lower "%2e".toList || (contains lower "%2f".toList || contains lower "%5c".toList)

def isPathSafeMinimal (toLowercase : List Char → List Char) (path : List Char) : Bool :=
  !path.contains '\x00' && !hasEncodedTraversal (toLowercase path)

section Validation

variable (fs : FileSystem)

/-- The absolute form of the path: canonical if it exists, otherwise normalised. -/
def resolved (path : PathBuf) (baseDir : Option PathBuf) : PathBuf :=
  if path.absolute = true then (fs.canonicalize path).getD (normalizeLexical path)
  else
    match baseDir with
    | some base =>
      let joined := base.join path
      (fs.canonicalize joined).getD (normalizeLexical joined)
    | none => normalizeLexical ((fs.currentDir.getD ⟨false, [.current]⟩).join path)

/-- The walk up to the nearest existing ancestor.  The ancestor is given by its components,
the last one first, and `tail` are the names below it. -/
def nearestAncestor (resolved : PathBuf) : List (PathPart Name) → List Name → PathBuf
  | components, tail =>
    let ancestor : PathBuf := ⟨resolved.absolute, components.reverse⟩
    if fs.isPresent ancestor = true then
      let canonicalAncestor := (fs.canonicalize ancestor).getD ancestor
      ⟨canonicalAncestor.absolute, canonicalAncestor.parts ++ tail.map .name⟩
    else
      match components with
      | .name a :: components => nearestAncestor resolved components (a :: tail)
      | _ :: components => nearestAncestor resolved components tail
      | [] => resolved

/-- The path that is compared with the base. -/
def checkPath (resolved : PathBuf) : PathBuf :=
  if fs.isPresent resolved = true then (fs.canonicalize resolved).getD resolved
  else nearestAncestor fs resolved resolved.components.reverse []

def validatePath (toLowercase : List Char → List Char) (pathStr : List Char)
    (baseDir : Option PathBuf) : Except ToolError PathBuf := do
  ensure (isPathSafeMinimal toLowercase pathStr = true)
    (.notAuthorized ("Path contains forbidden characters or sequences: " ++
      String.ofList pathStr))
  let path := resolved fs (.ofText pathStr) baseDir
  match baseDir with
  | some base =>
    let baseCanonical := (fs.canonicalize base).getD (normalizeLexical base)
    ensure ((checkPath fs path).startsWith baseCanonical = true)
      (.notAuthorized ("Path escapes sandbox: " ++ String.ofList pathStr))
  | none => .ok ()
  pure path

end Validation

open PathBuf

/-! ## Containment -/

section Containment

variable {fs : FileSystem}

theorem canonicalize_eq_some_iff {path result : PathBuf} : fs.canonicalize path = some result ↔
      ∃ location links, fs.lookup path = .found location links ∧
        ofNames true location = result := by
  unfold FileSystem.canonicalize
  cases fs.lookup path <;> simp

/-- A canonical or normalised path consists of names. -/
theorem resolved_eq_ofNames (fs : FileSystem) (path : PathBuf) (baseDir : Option PathBuf) :
    ∃ absolute names, resolved fs path baseDir = .ofNames absolute names := by
  have hgetD : ∀ path, ∃ absolute names,
      (fs.canonicalize path).getD (normalizeLexical path) = .ofNames absolute names := by
    intro path
    cases hcanonical : fs.canonicalize path with
    | none => exact ⟨_, _, rfl⟩
    | some result =>
      obtain ⟨location, _, _, rfl⟩ := canonicalize_eq_some_iff.1 hcanonical
      exact ⟨true, location, rfl⟩
  unfold resolved
  split
  · exact hgetD path
  · split
    · exact hgetD _
    · exact ⟨_, _, rfl⟩

@[simp]
theorem components_ofNames (absolute : Bool) (names : List Name) :
    (ofNames absolute names).components = names.map .name := by
  simp [components, ofNames]

variable {absolute : Bool}

theorem startsWith_ofNames {names base : List Name}
    (h : (ofNames absolute names).startsWith (.ofNames true base) = true) :
    absolute = true ∧ base <+: names := by
  simp only [startsWith, components_ofNames, Bool.and_eq_true, beq_iff_eq,
    isPrefixOf_iff_prefix] at h
  refine ⟨h.1, ?_⟩
  exact (prefix_map_iff_of_injective fun _ _ => PathPart.name.inj).1 h.2

theorem isPresent_eq_true_iff {path : PathBuf} :
    fs.isPresent path = true ↔ ∃ location links, fs.lookup path = .found location links := by
  unfold FileSystem.isPresent
  cases fs.lookup path <;> simp [Outcome.isFound]

variable {links : Nat}

theorem canonicalize_of_found {path : PathBuf} {location : List Name}
    (h : fs.lookup path = .found location links) :
    fs.canonicalize path = some (.ofNames true location) :=
  canonicalize_eq_some_iff.2 ⟨location, links, h, rfl⟩

theorem ancestor_eq (absolute : Bool) (names components : List Name) :
    (⟨(ofNames absolute names).absolute, (components.map .name).reverse⟩ : PathBuf) =
      .ofNames absolute components.reverse := by
  simp [ofNames]

theorem nearestAncestor_of_found {names components tail location : List Name}
    (h : fs.lookup (.ofNames absolute components.reverse) = .found location links) :
    nearestAncestor fs (.ofNames absolute names) (components.map .name) tail =
      .ofNames true (location ++ tail) := by
  unfold nearestAncestor
  rw [ancestor_eq, if_pos (isPresent_eq_true_iff.2 ⟨_, _, h⟩), canonicalize_of_found h]
  simp [ofNames]

theorem nearestAncestor_of_absent {names components tail : List Name}
    {x : Name} (h : fs.isPresent (.ofNames absolute (x :: components).reverse) = false) :
    nearestAncestor fs (.ofNames absolute names) ((x :: components).map .name) tail =
      nearestAncestor fs (.ofNames absolute names) (components.map .name) (x :: tail) := by
  conv_lhs => unfold nearestAncestor
  rw [ancestor_eq, if_neg (Bool.eq_false_iff.1 h)]
  rfl

/-- The path that is checked for a path that does not exist: the location of the last
existing ancestor `front` with the names below it.  A relative path may have no existing
ancestor; it is checked as it is. -/
theorem nearestAncestor_spec {names : List Name}
    (habsent : fs.isPresent (.ofNames absolute names) = false) (components tail : List Name)
    (hnames : names = components.reverse ++ tail)
    (hbelow : ∀ a rest, tail = a :: rest →
      fs.isPresent (.ofNames absolute (components.reverse ++ [a])) = false) :
    absolute = false ∧ nearestAncestor fs (.ofNames absolute names) (components.map .name) tail =
          .ofNames absolute names ∨
      ∃ front a rest location links, names = front ++ a :: rest ∧
        fs.lookup (.ofNames absolute front) = .found location links ∧
        fs.isPresent (.ofNames absolute (front ++ [a])) = false ∧
        nearestAncestor fs (.ofNames absolute names) (components.map .name) tail =
          .ofNames true (location ++ a :: rest) := by
  induction components generalizing tail with
  | nil =>
    cases absolute with
    | true =>
      -- the root exists
      have hroot : fs.lookup (.ofNames true []) = .found [] fs.maxLinks := by
        simp [FileSystem.lookup, ofNames, walk_eq, walkParts]
      cases tail with
      | nil =>
        subst hnames
        exact absurd (isPresent_eq_true_iff.2 ⟨_, _, hroot⟩) (Bool.eq_false_iff.1 habsent)
      | cons a rest =>
        exact .inr ⟨[], a, rest, [], _, hnames, hroot, hbelow a rest rfl,
          nearestAncestor_of_found hroot⟩
    | false =>
      refine .inl ⟨rfl, ?_⟩
      rfl
  | cons x components ih =>
    by_cases hpresent : fs.isPresent (.ofNames absolute (x :: components).reverse) = true
    · obtain ⟨location, links, hfound⟩ := isPresent_eq_true_iff.1 hpresent
      cases tail with
      | nil =>
        rw [hnames, append_nil, hpresent] at habsent
        cases habsent
      | cons a rest =>
        exact .inr ⟨_, a, rest, location, links, hnames, hfound, hbelow a rest rfl,
          nearestAncestor_of_found hfound⟩
    · rw [nearestAncestor_of_absent (Bool.eq_false_iff.2 hpresent)]
      refine ih (x :: tail) ?_ ?_
      · simpa using hnames
      · simpa using hpresent

/-- All paths that continue a found path start their lookup at the same location. -/
theorem lookup_append_of_found {front location : List Name}
    (h : fs.lookup (.ofNames absolute front) = .found location links) :
    ∃ start, ∀ names, fs.lookup (.ofNames absolute (front ++ names)) =
      walk fs.tree fs.maxLinks start (front.map .name ++ names.map .name) := by
  cases absolute with
  | true => exact ⟨[], fun names => by simp [FileSystem.lookup, ofNames]⟩
  | false =>
    unfold FileSystem.lookup at h
    cases hdir : fs.workingDirectory with
    | none => simp [hdir, ofNames] at h
    | some start =>
      refine ⟨start, fun names => ?_⟩
      have hfront : front ≠ [] := by
        rintro rfl
        simp [ofNames] at h
      simp [FileSystem.lookup, ofNames, hdir, hfront]

/-- A path with a missing name reaches the location of its last existing ancestor with the
names below it, if anything. -/
theorem reaches_below {front rest location names : List Name} {a : Name}
    (hlinks : NoDangling fs.tree)
    (hfront : fs.lookup (.ofNames absolute front) = .found location links)
    (habsent : fs.isPresent (.ofNames absolute (front ++ [a])) = false)
    (h : fs.reaches (.ofNames absolute (front ++ a :: rest)) = some names) :
    names = location ++ a :: rest := by
  obtain ⟨start, hlookup⟩ := lookup_append_of_found hfront
  have hfound := hlookup []
  rw [append_nil, map_nil, append_nil, hfront] at hfound
  have hnext := hlookup [a]
  unfold FileSystem.isPresent at habsent
  rw [hnext] at habsent
  rw [FileSystem.reaches, hlookup] at h
  rcases walk_below hlinks hfound.symm habsent with hmissing | hfailed
  · rw [map_cons, hmissing, Outcome.location, resolve_names] at h
    simpa using h.symm
  · rw [map_cons, hfailed] at h
    cases h

/-- In a file system without dangling links, and for a base directory that exists, a
validated path has no `..`, and what it leads to lies under the location of the base. -/
theorem validated_path_contained (hlinks : NoDangling fs.tree)
    {toLowercase : List Char → List Char} {pathStr : List Char} {base path : PathBuf}
    {baseLocation : List Name} {links : Nat} (hbase : fs.lookup base = .found baseLocation links)
    (h : validatePath fs toLowercase pathStr (some base) = .ok path) :
    PathPart.parent ∉ path.parts ∧
      ∀ location, fs.reaches path = some location → baseLocation <+: location := by
  simp only [validatePath, bind_eq_ok_iff, ensure_eq_ok_iff, pure_eq_ok_iff, exists_const,
    canonicalize_of_found hbase] at h
  obtain ⟨_, hstarts, hpath⟩ := h
  obtain ⟨absolute, names, hnames⟩ := resolved_eq_ofNames fs (.ofText pathStr) (some base)
  rw [hpath] at hstarts
  rw [hpath] at hnames
  subst hnames
  refine ⟨by simp [ofNames], fun location hlocation => ?_⟩
  unfold checkPath at hstarts
  split at hstarts
  · rename_i hpresent
    obtain ⟨found, _, hfound⟩ := isPresent_eq_true_iff.1 hpresent
    rw [canonicalize_of_found hfound] at hstarts
    rw [FileSystem.reaches, hfound, Outcome.location] at hlocation
    obtain rfl : found = location := by simpa using hlocation
    exact (startsWith_ofNames hstarts).2
  · rename_i habsent
    rw [components_ofNames, ← map_reverse] at hstarts
    rcases nearestAncestor_spec (Bool.eq_false_iff.2 habsent) names.reverse [] (by simp)
        (by simp) with ⟨rfl, hself⟩ | hsplit
    · rw [hself] at hstarts
      exact absurd (startsWith_ofNames hstarts).1 Bool.false_ne_true
    · obtain ⟨front, a, rest, found, _, rfl, hfront, hnext, hcheck⟩ := hsplit
      rw [hcheck] at hstarts
      rw [reaches_below hlinks hfront hnext hlocation]
      exact (startsWith_ofNames hstarts).2

end Containment

/-! ## A directory behind a link -/

def srv : Name := "srv".toList

def work : Name := "work".toList

/-- The directory `/srv/work`, and a link to it at `/work`. -/
def linkedNode (location : List Name) : Option (Node Name) :=
  if location = [] ∨ location = [srv] ∨ location = [srv, work] then some .directory
  else if location = [work] then some (.symlink true [.name srv, .name work])
  else none

def linkedTree : DirTree Name where
  node := linkedNode
  root := rfl
  parent := by
    intro location a h
    have hcases : location ++ [a] = [srv] ∨ location ++ [a] = [srv, work] ∨
        location ++ [a] = [work] := by
      by_contra hnone
      simp only [not_or] at hnone
      exact h (by simp [linkedNode, hnone])
    have hsplit : [srv, work] = [srv] ++ [work] := rfl
    rcases hcases with hone | htwo | hone
    · obtain ⟨rfl, _⟩ : location = [] ∧ _ := by simpa [append_eq_singleton_iff] using hone
      rfl
    · rw [hsplit] at htwo
      rw [append_inj_left' htwo rfl]
      rfl
    · obtain ⟨rfl, _⟩ : location = [] ∧ _ := by simpa [append_eq_singleton_iff] using hone
      rfl

theorem noDangling_linkedTree : NoDangling linkedTree := by
  rintro location a ⟨absolute, target, links, missing, b, rest, hnode, hwalk⟩
  have hlink : absolute = true ∧ target = [.name srv, .name work] := by
    simp only [linkedTree, linkedNode] at hnode
    split at hnode
    · cases hnode
    · split at hnode
      · simpa [eq_comm] using hnode
      · cases hnode
  obtain ⟨rfl, rfl⟩ := hlink
  rw [walk_eq] at hwalk
  cases hwalk

def linkedFileSystem : FileSystem where
  tree := linkedTree
  workingDirectory := none
  maxLinks := 40

/-- A new file below the link is created below the directory that the link leads to. -/
theorem new_file_contained :
    (validatePath linkedFileSystem (fun text => text) "a/../notes.txt".toList
        (some (.ofText "/work".toList)) = .ok (.ofNames true [work, "notes.txt".toList]) ∧
      linkedFileSystem.reaches (.ofNames true [work, "notes.txt".toList]) =
        some [srv, work, "notes.txt".toList]) ∧
      PathPart.parent ∉ (ofNames true [work, "notes.txt".toList]).parts ∧
        ∀ location, linkedFileSystem.reaches (.ofNames true [work, "notes.txt".toList]) =
          some location → [srv, work] <+: location := by
  have hvalid : validatePath linkedFileSystem (fun text => text) "a/../notes.txt".toList
      (some (.ofText "/work".toList)) = .ok (.ofNames true [work, "notes.txt".toList]) := by
    decide +kernel
  have hbase : linkedFileSystem.lookup (.ofText "/work".toList) = .found [srv, work] 39 := by
    rfl
  exact ⟨⟨hvalid, by decide +kernel⟩, validated_path_contained noDangling_linkedTree hbase hvalid⟩

end Axinite.Tools.PathUtils
