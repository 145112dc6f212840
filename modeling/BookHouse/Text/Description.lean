/-
A product's description as the storefront's editor sees it: `frontend/lib/desc.ts`.

The text is stored as one string, intro lines first and then one line per point.  The bullet
pattern is written out as the walk it does over a line: the white space before the mark, the
mark, and the white space after it, of which there has to be some.
-/
import BookHouse.Orders.Coupons
import Mathlib.Data.List.DropRight

namespace BookHouse

structure DescParts where
  intro : String
  points : List String
deriving DecidableEq, Repr

namespace Desc

abbrev Line := List Char

def trimEnd (l : Line) : Line := l.rdropWhile isBlank

/-- `trim` on a line's characters -/
def strip (l : Line) : Line := trimEnd (l.dropWhile isBlank)

/-- `lines.join("\n")` -/
def joinLines (lines : List Line) : String := String.ofList (['\n'].intercalate lines)

def marks : List Char := ['•', '-', '*', '✓', '✔', '▪', '●']

/-- What follows `^\s*(?:[•\-*✓✔▪●]|\d+[.)])`, if the line begins so. -/
def afterMark (line : Line) : Option Line :=
  match line.dropWhile isBlank with
  | [] => none
  | c :: rest =>
    if c ∈ marks then some rest
    else if c.isDigit then
      match rest.dropWhile Char.isDigit with
      | [] => none
      | d :: rest => if d = '.' ∨ d = ')' then some rest else none
    else none

/-- `line.replace(BULLET, "")`, if `BULLET.test(line)` -/
def unbullet (line : Line) : Option Line :=
  match afterMark line with
  | none => none
  | some [] => none
  | some (c :: rest) => if isBlank c then some (rest.dropWhile isBlank) else none

/-- The intro lines and the points so far. -/
structure Read where
  intro : List Line := []
  points : List Line := []

/-- One round of the loop. -/
def readLine (r : Read) (raw : Line) : Read :=
  let line := trimEnd raw
  match unbullet line with
  | some rest =>
      let p := strip rest
      if p ≠ [] then { r with points := r.points ++ [p] } else r
  | none => if strip line ≠ [] then { r with intro := r.intro ++ [strip line] } else r

/-- `text.replace(/\r/g, "").split("\n")` -/
def linesOf (text : String) : List Line := (text.toList.filter (· ≠ '\r')).splitOn '\n'

end Desc

open Desc

def parseDesc (text : Option String) : DescParts :=
  let r := (linesOf (text.getD "")).foldl readLine {}
  { intro := joinLines r.intro, points := r.points.map String.ofList }

def joinDesc (parts : DescParts) : String :=
  let body := ((parts.points.map fun p => strip p.toList).filter (· ≠ [])).map (['•', ' '] ++ ·)
  joinLines ((strip parts.intro.toList :: body).filter (· ≠ []))

end BookHouse
