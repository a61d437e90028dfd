import Localizer.Diff.Script
import Localizer.Text.Lines

/-!
# Unified diffs

A unified diff shows the changes of an edit script with three lines of context. Changes that are
more than six lines apart go into different hunks, each under a header that says which lines of the
two files it is about.
-/

namespace Localizer.Diff

open Text

/-- How many lines of context stand around a change. -/
def context : Nat := 3

/-- A stretch of both files with its changes. -/
structure Hunk where
  /-- How many lines of the old file come before it. -/
  oldStart : Nat
  /-- How many lines of the new file come before it. -/
  newStart : Nat
  segments : List Segment
  deriving Repr, DecidableEq

namespace Hunk

/-- How many lines of the old file a hunk is about. -/
def oldSize (h : Hunk) : Nat := (h.segments.flatMap Segment.old).length

/-- How many lines of the new file a hunk is about. -/
def newSize (h : Hunk) : Nat := (h.segments.flatMap Segment.new).length

/-- A hunk with one more segment. -/
def push (h : Hunk) (s : Segment) : Hunk := { h with segments := h.segments ++ [s] }

/-- Whether a hunk has no change to show. -/
def isIdle (h : Hunk) : Bool :=
  match h.segments with
  | [] => true
  | [.same _] => true
  | _ => false

end Hunk

/-- The hunks of a script whose outer runs have been cut to the context; `open_` is the hunk being
filled, which has read up to the lines `i` and `j` of the two files. -/
def group (open_ : Hunk) (i j : Nat) : List Segment → List Hunk
  | [] => if open_.isIdle then [] else [open_]
  | .same ls :: rest =>
    if 2 * context < ls.length then
      let skip := ls.length - context
      open_.push (.same (ls.take context)) ::
        group ⟨i + skip, j + skip, [.same (ls.drop skip)]⟩ (i + ls.length) (j + ls.length) rest
    else group (open_.push (.same ls)) (i + ls.length) (j + ls.length) rest
  | .change old new :: rest =>
    group (open_.push (.change old new)) (i + old.length) (j + new.length) rest

/-- Cut the run at the end of a script to the context. -/
def trimEnd (ss : List Segment) : List Segment :=
  match ss.getLast? with
  | some (.same ls) => ss.dropLast ++ [.same (ls.take context)]
  | _ => ss

/-- The hunks of an edit script. -/
def hunks (ss : List Segment) : List Hunk :=
  match ss with
  | .same ls :: rest =>
    let skip := ls.length - context
    let front := ls.drop skip
    group ⟨skip, skip, []⟩ skip skip (trimEnd (.same front :: rest))
  | ss => group ⟨0, 0, []⟩ 0 0 (trimEnd ss)

/-- The place of a hunk in one of the files: its first line and how many lines it has. The number of
lines is left out if it is one, and without lines the line before is named. -/
def rangeText (start size : Nat) : Text :=
  if size = 1 then ofNat (start + 1)
  else ofNat (if size = 0 then start else start + 1) ++ ',' :: ofNat size

/-- The lines of a segment, each with its mark. -/
def Segment.render : Segment → List Message
  | .same ls => marked ' ' ls
  | .change old new => marked '-' old ++ marked '+' new
where
  /-- Lines with a mark in front of each. -/
  marked (mark : Char) (ls : List Message) : List Message := ls.map (.ofChar mark :: ·)

/-- A hunk with its header. -/
def Hunk.render (h : Hunk) : List Message :=
  Message.ofText ("@@ -".toList ++ rangeText h.oldStart h.oldSize ++ " +".toList ++
    rangeText h.newStart h.newSize ++ " @@\n".toList) :: h.segments.flatMap Segment.render

/-- The unified diff of two messages under the names of their files; empty if they are equal. -/
def unified (oldName newName : Text) (old new : Message) : Message :=
  match hunks (script old.brokenLines new.brokenLines) with
  | [] => []
  | hs =>
    Message.ofText ("--- ".toList ++ oldName ++ "\n+++ ".toList ++ newName ++ ['\n']) ++
      (hs.flatMap Hunk.render).flatten

end Localizer.Diff
