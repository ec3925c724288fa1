import Axinite.Foundation.Utf8
import Mathlib.Data.List.AList

/-!
# Paths of the workspace

Documents are stored under normalised paths (`workspace/mod.rs`, `workspace/files.rs`): white
space is trimmed first, then slashes, and then runs of slashes are collapsed.  White space behind
the outer slashes is kept, and trimmed only when the path is normalised once more.

Main results:

- Theorem `normalizePath_normalizePath_iff`: the paths that are normalised for good.
- Theorem `found_again_iff`: the paths whose documents are found under the listed path.
-/

namespace Axinite.Workspace

open Foundation.Utf8 List

abbrev Path := List Char

def collapseSlashes (lastWasSlash : Bool) : List Char → List Char
  | [] => []
  | c :: cs =>
    if c = '/' then
      if lastWasSlash then collapseSlashes true cs else c :: collapseSlashes true cs
    else c :: collapseSlashes false cs

/-- The path without white space and slashes around it. -/
def core (path : Path) : Path :=
  trimMatches (· == '/') (trim path)

/-- Normalize a file path (remove leading/trailing slashes, collapse //). -/
def normalizePath (path : Path) : Path :=
  collapseSlashes false (core path)

/-! ## Collapsing -/

theorem collapseSlashes_collapseSlashes (lastWasSlash : Bool) (cs : List Char) :
    collapseSlashes lastWasSlash (collapseSlashes lastWasSlash cs) =
      collapseSlashes lastWasSlash cs := by
  induction cs generalizing lastWasSlash with
  | nil => rfl
  | cons c cs ih =>
    by_cases hc : c = '/'
    · cases lastWasSlash <;> simp [collapseSlashes, hc, ih]
    · simp [collapseSlashes, hc, ih]

theorem getLast?_collapseSlashes (c : Char) (cs : List Char) :
    (c :: collapseSlashes (c = '/') cs).getLast? = (c :: cs).getLast? := by
  induction cs generalizing c with
  | nil => rfl
  | cons d cs ih =>
    by_cases hd : d = '/'
    · subst hd
      by_cases hc : c = '/'
      · subst hc
        simpa [collapseSlashes] using ih '/'
      · simpa [collapseSlashes, hc] using ih '/'
    · simpa [collapseSlashes, hd] using ih d

theorem collapseSlashes_sublist (lastWasSlash : Bool) (cs : List Char) :
    (collapseSlashes lastWasSlash cs).Sublist cs := by
  induction cs generalizing lastWasSlash with
  | nil => exact .slnil
  | cons c cs ih =>
    rw [collapseSlashes]
    split
    · split
      · exact (ih true).cons c
      · exact (ih true).cons_cons c
    · exact (ih false).cons_cons c

/-- Collapsing leaves the two ends alone. -/
theorem trimMatches_collapseSlashes_iff (p : Char → Bool) (cs : List Char) :
    trimMatches p (collapseSlashes false cs) = collapseSlashes false cs ↔ trimMatches p cs = cs := by
  cases cs with
  | nil => exact iff_of_true rfl rfl
  | cons c cs =>
    have hcons : collapseSlashes false (c :: cs) = c :: collapseSlashes (c = '/') cs := by
      by_cases hc : c = '/' <;> simp [collapseSlashes, hc]
    rw [hcons, trimMatches_eq_self_iff, trimMatches_eq_self_iff, getLast?_collapseSlashes]
    rfl

/-- A path is normalised for good exactly if no white space is left at the ends. -/
theorem normalizePath_normalizePath_iff (path : Path) :
    normalizePath (normalizePath path) = normalizePath path ↔ trim (core path) = core path := by
  have htrim : trim (normalizePath path) = normalizePath path ↔ trim (core path) = core path :=
    trimMatches_collapseSlashes_iff isWhitespace (core path)
  constructor
  · intro h
    refine htrim.1 (trimMatches_sublist.eq_of_length_le ?_)
    calc (normalizePath path).length = (normalizePath (normalizePath path)).length := by rw [h]
      _ ≤ (core (normalizePath path)).length := (collapseSlashes_sublist _ _).length_le
      _ ≤ (trim (normalizePath path)).length := trimMatches_sublist.length_le
  · intro h
    have hcore : core (normalizePath path) = normalizePath path := by
      rw [core, htrim.2 h]
      exact (trimMatches_collapseSlashes_iff _ _).2 trimMatches_trimMatches
    rw [normalizePath, hcore]
    exact collapseSlashes_collapseSlashes false (core path)

/-! ## Documents -/

/-- The documents of a user and an agent by their paths. -/
abbrev Documents := AList fun _ : Path => String

namespace Documents

variable (docs : Documents) (path : Path)

def read : Option String :=
  docs.lookup (normalizePath path)

def write (content : String) : Documents :=
  docs.insert (normalizePath path) content

/-- What a document holds after an entry was appended to it. -/
def appended (content entry : String) : String :=
  if content.isEmpty then entry else content ++ "\n" ++ entry

def append (entry : String) : Documents :=
  docs.insert (normalizePath path) (appended ((docs.lookup (normalizePath path)).getD "") entry)

/-- Delete a document that is present. -/
def delete : Option Documents :=
  (docs.lookup (normalizePath path)).map fun _ => docs.erase (normalizePath path)

/-- The paths as they are stored. -/
def listAll : List Path :=
  docs.keys

end Documents

/-- The document written under a path is read, extended and deleted under the listed path. -/
def FoundAgain (path : Path) : Prop :=
  ∀ (docs : Documents) (content : String),
    let written := docs.write path content
    ∃ listed ∈ written.listAll, listed = normalizePath path ∧ written.read listed = some content ∧
      (∀ entry, (written.append listed entry).lookup listed =
        some (Documents.appended content entry)) ∧
      written.delete listed = some (written.erase listed)

/-- Normalised paths are canonical exactly for the paths that keep no white space behind the
outer slashes. -/
theorem found_again_iff (path : Path) :
    (normalizePath (normalizePath path) = normalizePath path ∧ FoundAgain path) ↔
      (∀ c ∈ (core path).head?, isWhitespace c = false) ∧
        ∀ c ∈ (core path).getLast?, isWhitespace c = false := by
  have hends : trim (core path) = core path ↔ _ := trimMatches_eq_self_iff
  rw [← hends, ← normalizePath_normalizePath_iff]
  refine and_iff_left_of_imp fun hsame docs content => ?_
  refine ⟨normalizePath path, ?_, rfl, ?_, fun entry => ?_, ?_⟩
  · exact AList.mem_keys.1 ((AList.mem_insert _).2 (Or.inl rfl))
  · rw [Documents.read, hsame]
    exact AList.lookup_insert _
  · rw [Documents.append, hsame, AList.lookup_insert, Documents.write, AList.lookup_insert]
    rfl
  · rw [Documents.delete, hsame, Documents.write, AList.lookup_insert]
    rfl

/-- A document that is listed, but not found. -/
theorem blank_behind_slash :
    let docs := (∅ : Documents).write "/ a".toList "x"
    docs.listAll = [" a".toList] ∧ docs.read " a".toList = none := by
  decide

end Axinite.Workspace
