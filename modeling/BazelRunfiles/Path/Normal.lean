import BazelRunfiles.Path

/-!
Two normal forms of a path. Both keep the slashes in front in one of three ways: none, one, or
exactly two. `Normal` only drops empty and single-dot segments, so that `a//./b` and `a/b` are one
name; `absolute` also joins the path to a working directory and lets every `..` take back the
segment before it, without asking what the segments lead to.
-/

namespace BazelRunfiles

namespace Path

/-- The slashes that stay in front: two if there are exactly two, else one if there are any. -/
def root : Text → Text
  | '/' :: '/' :: '/' :: _ => ['/']
  | '/' :: '/' :: _ => ['/', '/']
  | '/' :: _ => ['/']
  | _ => []

/-- A path without empty and single-dot segments. -/
structure Normal where
  root : Text
  segments : List Text
  deriving DecidableEq

namespace Normal

/-- The segments that name something. -/
def ofText (p : Text) : Normal :=
  ⟨Path.root p, (Path.segments p).filter fun s => s ≠ [] ∧ s ≠ ['.']⟩

/-- Whether the path starts at the root. -/
def isAbsolute (n : Normal) : Bool := n.root ≠ []

/-- Whether the path leads nowhere. -/
def isEmpty (n : Normal) : Bool := n.root = [] && n.segments = []

/-- The text of the path; a single dot if it leads nowhere. -/
def toText (n : Normal) : Text :=
  if n.isEmpty then ['.'] else n.root ++ ofSegments n.segments

/-- The last segment; empty if there is none. -/
def name (n : Normal) : Text := n.segments.getLast?.getD []

end Normal

/-- Adds a segment to a stack of segments whose top is its head. Where nothing is left to take back,
a rooted path drops a `..` and a relative one keeps it. -/
def push (rooted : Bool) (stack : List Text) (segment : Text) : List Text :=
  if segment = [] ∨ segment = ['.'] then stack
  else if segment ≠ ['.', '.'] then segment :: stack
  else match stack with
    | [] => if rooted then [] else [segment]
    | top :: below => if top = ['.', '.'] then segment :: top :: below else below

/-- The segments that are left after every `..` has taken back the one before it. -/
def collapse (rooted : Bool) (parts : List Text) : List Text :=
  (parts.foldl (push rooted) []).reverse

/-- A path with its segments collapsed; a single dot if none is left. -/
def tidy (p : Text) : Text :=
  let text := root p ++ ofSegments (collapse (root p ≠ []) (segments p))
  if text = [] then ['.'] else text

/-- A path as seen from the root. -/
def absolute (workingDirectory p : Text) : Text := tidy (join workingDirectory p)

end Path

end BazelRunfiles
