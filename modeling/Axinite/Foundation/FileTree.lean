import Axinite.Foundation.DotSegments

/-!
# Path lookup in a file tree

A file tree has directories, files and symbolic links, addressed by the list of names from
the root.  Looking up a path walks through the tree part by part; a link is replaced by its
target, at most `links` times in one lookup.  A lookup ends at an existing location, at the
first name that does not exist, or it fails: at a file that is used as a directory, or at
one link too many.

Main results:

- Theorem `walk_append`: a path is looked up in two parts.
- Theorem `walk_below`: below the last existing location of a path, a lookup finds a missing
  name or fails, unless a link dangles.
-/

namespace Axinite.Foundation.FileTree

open DotSegments List

/-- What a location holds. -/
inductive Node (α : Type) where
  | directory
  | file
  | symlink (absolute : Bool) (target : List (PathPart α))

/-- A tree of files below a root directory. -/
structure DirTree (α : Type) where
  node : List α → Option (Node α)
  root : node [] = some .directory
  parent : ∀ location a, node (location ++ [a]) ≠ none → node location = some .directory

/-- The end of a lookup; `links` is the number of links that it could still have followed,
and `rest` is what it did not come to. -/
inductive Outcome (α : Type) where
  | found (location : List α) (links : Nat)
  | missing (location : List α) (a : α) (rest : List (PathPart α))
  | failed

variable {α : Type}

/-- The location that a path leads to.  For a missing name it is the one where the path is
created, with all directories on the way. -/
def Outcome.location : Outcome α → Option (List α)
  | found location _ => some location
  | missing location a rest => some (resolve (location ++ [a]) rest)
  | failed => none

/-- Walk through the parts of a path, from `location`; `follow` continues behind a link. -/
def walkParts (tree : DirTree α) (links : Nat)
    (follow : List α → List (PathPart α) → Outcome α) : List α → List (PathPart α) → Outcome α
  | location, [] => .found location links
  | location, part :: rest =>
    match tree.node location with
    | some .directory =>
      match part with
      | .current => walkParts tree links follow location rest
      | .parent => walkParts tree links follow location.dropLast rest
      | .name a =>
        match tree.node (location ++ [a]) with
        | none => .missing location a rest
        | some (.symlink absolute target) =>
          follow (if absolute = true then [] else location) (target ++ rest)
        | some .directory => walkParts tree links follow (location ++ [a]) rest
        | some .file => walkParts tree links follow (location ++ [a]) rest
    | _ => .failed

/-- Look up a path from `location`, with at most `links` links on the way. -/
def walk (tree : DirTree α) : Nat → List α → List (PathPart α) → Outcome α
  | 0 => walkParts tree 0 fun _ _ => .failed
  | links + 1 => walkParts tree (links + 1) (walk tree links)

/-- What happens at a link, if `links` links may be followed. -/
def follow (tree : DirTree α) : Nat → List α → List (PathPart α) → Outcome α
  | 0 => fun _ _ => .failed
  | links + 1 => walk tree links

theorem walk_eq (tree : DirTree α) (links : Nat) :
    walk tree links = walkParts tree links (follow tree links) := by
  cases links <;> rfl

/-- Continue a lookup with more parts. -/
def Outcome.andThen (tree : DirTree α) (more : List (PathPart α)) : Outcome α → Outcome α
  | found location links => walk tree links location more
  | missing location a rest => .missing location a (rest ++ more)
  | failed => .failed

/-- A path is looked up in two parts, where the second part has the links that the first one
left. -/
theorem walk_append (tree : DirTree α) (links : Nat) (location : List α)
    (parts more : List (PathPart α)) :
    walk tree links location (parts ++ more) =
      (walk tree links location parts).andThen tree more := by
  -- by induction on the links, and for each number of links on the parts
  have hparts : ∀ links, (∀ location parts, follow tree links location (parts ++ more) =
        (follow tree links location parts).andThen tree more) →
      ∀ parts location, walk tree links location (parts ++ more) =
        (walk tree links location parts).andThen tree more := by
    intro links hfollow parts
    rw [walk_eq]
    induction parts with
    | nil =>
      intro location
      rw [nil_append, walkParts, Outcome.andThen, walk_eq]
    | cons part parts ih =>
      intro location
      simp only [cons_append, walkParts]
      cases tree.node location with
      | none => rfl
      | some node =>
        cases node with
        | file | symlink _ _ => rfl
        | directory =>
          cases part with
          | current => exact ih _
          | parent => exact ih _
          | name a =>
            dsimp only
            cases tree.node (location ++ [a]) with
            | none => rfl
            | some node =>
              cases node with
              | directory | file => exact ih _
              | symlink absolute target =>
                dsimp only
                rw [← append_assoc, hfollow]
  induction links generalizing location parts with
  | zero => exact hparts 0 (fun _ _ => rfl) _ _
  | succ links ih => exact hparts (links + 1) (ih) _ _

/-- The link at a location dangles: following it ends at a name that does not exist. -/
def Dangling (tree : DirTree α) (location : List α) (a : α) : Prop :=
  ∃ absolute target links missing b rest,
    tree.node (location ++ [a]) = some (.symlink absolute target) ∧
      walk tree links (if absolute = true then [] else location) target =
        .missing missing b rest

/-- No link of the tree dangles. -/
def NoDangling (tree : DirTree α) : Prop :=
  ∀ location a, ¬ Dangling tree location a

/-- The lookup ends at an existing location. -/
def Outcome.isFound : Outcome α → Bool
  | found _ _ => true
  | _ => false

/-- One name, seen from an existing location: if it is not found there, and no link dangles,
then it does not exist or the lookup fails; in both cases further parts change nothing. -/
theorem walk_name_of_not_found {tree : DirTree α} (hlinks : NoDangling tree) {links : Nat}
    {location : List α} {a : α} (h : (walk tree links location [.name a]).isFound = false)
    (more : List (PathPart α)) :
    walk tree links location (.name a :: more) = .missing location a more ∨
      walk tree links location (.name a :: more) = .failed := by
  have happend := walk_append tree links location [.name a] more
  rw [singleton_append] at happend
  rw [happend]
  cases hwalk : walk tree links location [.name a] with
  | found found links => simp [hwalk, Outcome.isFound] at h
  | failed => exact .inr rfl
  | missing location' b rest =>
    rw [walk_eq] at hwalk
    simp only [walkParts] at hwalk
    split at hwalk
    · split at hwalk
      · obtain ⟨rfl, rfl, rfl⟩ : location = location' ∧ a = b ∧ [] = rest := by
          simpa using hwalk
        exact .inl rfl
      · rename_i absolute target hnode
        rw [append_nil] at hwalk
        cases links with
        | zero => cases hwalk
        | succ links =>
          exact absurd ⟨absolute, target, links, location', b, rest, hnode, hwalk⟩
            (hlinks _ a)
      · cases hwalk
      · cases hwalk
    · cases hwalk

/-- Below the last existing location of a path, a lookup finds a missing name or fails. -/
theorem walk_below {tree : DirTree α} (hlinks : NoDangling tree) {links left : Nat}
    {start location : List α} {front more : List (PathPart α)} {a : α}
    (hfront : walk tree links start front = .found location left)
    (h : (walk tree links start (front ++ [.name a])).isFound = false) :
    walk tree links start (front ++ .name a :: more) = .missing location a more ∨
      walk tree links start (front ++ .name a :: more) = .failed := by
  rw [walk_append, hfront] at h ⊢
  exact walk_name_of_not_found hlinks h more

end Axinite.Foundation.FileTree
