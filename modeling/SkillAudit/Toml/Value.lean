import SkillAudit.Toml.Decimal

/-!
# TOML values

The values of a TOML document.  A table remembers how it came to be, because that decides which
later lines may add to it.

* `changeAt`: the one way in which nested tables are reached and made.
-/

namespace SkillAudit

/-- How a table came to be. -/
inductive TableOrigin where
  /-- By a header of its own, or as the document. -/
  | header
  /-- On the way to a table with a header. -/
  | passed
  /-- By a dotted key. -/
  | dotted
  /-- As a value between braces. -/
  | inline
  deriving DecidableEq, Repr

/-- A value of a TOML document. -/
inductive Toml where
  | string (value : String)
  | bool (value : Bool)
  | integer (value : Int)
  | decimal (value : Decimal)
  /-- An infinity or an indefinite number. -/
  | special
  /-- A number with characters among its digits that are none; it is refused where it is looked
  at. -/
  | unreadable
  /-- A date, a time of day, or both. -/
  | moment
  | list (items : List Toml)
  /-- The tables of a repeated header, the last one first. -/
  | tables (items : List (List (String × Toml)))
  | table (origin : TableOrigin) (entries : List (String × Toml))
  deriving Inhabited

namespace Toml

/-- The entries of a table. -/
abbrev Entries := List (String × Toml)

/-- Replace the value of a key that is there. -/
def replace (key : String) (value : Toml) : Entries → Entries
  | [] => []
  | (k, old) :: rest =>
      if k = key then (key, value) :: rest else (k, old) :: replace key value rest

/-- Whether a table may be reached by a dotted key. -/
def reachable (byDots : Bool) (origin : TableOrigin) : Bool :=
  match origin with
  | .inline => false
  | .header => !byDots
  | .passed | .dotted => true

/-- Change the entries of the table that a path reaches.  Missing tables on the way are made; the
last table of a repeated header stands for all of them. -/
def changeAt
    (byDots : Bool)
    (change : TableOrigin → Entries → Option Entries) :
    List String → TableOrigin → Entries → Option Entries
  | [], origin, entries => change origin entries
  | key :: path, _, entries =>
      match entries.lookup key with
      | none => do
          let origin := if byDots then TableOrigin.dotted else .passed
          let inner ← changeAt byDots change path origin []
          return entries ++ [(key, .table origin inner)]
      | some (.table origin old) =>
          if reachable byDots origin then do
            let inner ← changeAt byDots change path origin old
            return replace key (.table origin inner) entries
          else
            none
      | some (.tables (last :: before)) => do
          let inner ← changeAt byDots change path .header last
          return replace key (.tables (inner :: before)) entries
      | some _ => none

/-- Add a value under a new key of a table. -/
def addNew (key : String) (value : Toml) (entries : Entries) : Option Entries :=
  match entries.lookup key with
  | none => some (entries ++ [(key, value)])
  | some _ => none

/-- Add a value under a dotted key, given by its path and its last part.  A table made by dots is
added to by dots only, and any other table without. -/
def addPair
    (path : List String)
    (key : String)
    (value : Toml)
    (origin : TableOrigin)
    (entries : Entries) :
    Option Entries :=
  changeAt true
    (fun origin entries =>
      if origin = .dotted ↔ path ≠ [] then addNew key value entries else none)
    path origin entries

/-- Open a table by its header: a new one, or one that was only passed so far. -/
def openTable (path : List String) (key : String) (entries : Entries) : Option Entries :=
  changeAt false
    (fun _ entries =>
      match entries.lookup key with
      | none => some (entries ++ [(key, .table .header [])])
      | some (.table .passed inner) => some (replace key (.table .header inner) entries)
      | some _ => none)
    path .header entries

/-- Open one more table of a repeated header. -/
def openRepeated (path : List String) (key : String) (entries : Entries) : Option Entries :=
  changeAt false
    (fun _ entries =>
      match entries.lookup key with
      | none => some (entries ++ [(key, .tables [[]])])
      | some (.tables items) => some (replace key (.tables ([] :: items)) entries)
      | some _ => none)
    path .header entries

end Toml
end SkillAudit
