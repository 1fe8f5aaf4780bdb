import Admission.Text.Pieces

/-!
# Paths

Names of files, their parts divided by slashes. An empty path is the directory that one is in.
-/

namespace Admission.Path

/-- What stands between the slashes. -/
def steps (path : String) : List String :=
  ((Text.pieces '/' path.toList).map String.ofList).filter (· != "")

/-- The steps that lead somewhere: all but `.`. -/
def parts (path : String) : List String := (steps path).filter (· != ".")

def isAbsolute (path : String) : Bool := path.toList.head? == some '/'

def ofParts (absolute : Bool) (ps : List String) : String :=
  (if absolute then "/" else "") ++ "/".intercalate ps

/-- One step further down, or back up to where one came from. -/
def descend (above : List String) (part : String) : List String :=
  if part == ".." && above.getLast?.any (· != "..") then above.dropLast else above ++ [part]

/-- The spelling that all names of one file share. -/
def normal (path : String) : String := ofParts (isAbsolute path) ((parts path).foldl descend [])

/-- The paths of one step, of two steps, and so on up to the path itself. -/
def prefixes (path : String) : List String :=
  let all := steps path
  (List.range all.length).map fun i => ofParts (isAbsolute path) (all.take (i + 1))

def endsInSlash (path : String) : Bool := path.toList.getLast? == some '/'

/-- The directory that the file lies in, if the path names something in a directory. -/
def parent? (path : String) : Option String :=
  match parts path with
  | [] => none
  | ps => some (ofParts (isAbsolute path) ps.dropLast)

def join (directory name : String) : String :=
  if isAbsolute name || directory == "" then name
  else if directory.toList.getLast? == some '/' then directory ++ name
  else directory ++ "/" ++ name

/-- The part of a file name in front of its last point. A point at the very start is none. -/
def stem (name : List Char) : List Char :=
  let ending := name.reverse.takeWhile (· != '.')
  let rest := name.take (name.length - ending.length - 1)
  if rest.isEmpty then name else rest

/-- What is left of a reversed path without the slashes and single points behind its last part. -/
def dropTail : List Char → List Char
  | '/' :: rest => dropTail rest
  | '.' :: '/' :: rest => dropTail rest
  | cs => cs

/-- The path with another ending of its file name. -/
def withEnding (path ending : String) : String :=
  match (parts path).getLast? with
  | none | some ".." => path
  | some name =>
    let cs := (dropTail path.toList.reverse).reverse
    let directory := cs.take (cs.length - name.length)
    String.ofList (directory ++ stem name.toList ++ '.' :: ending.toList)

example : normal "./a//b/../c" = "a/c" ∧ normal "../a" = "../a" := by decide +kernel

example : withEnding "a/ledger.json" "json.tmp" = "a/ledger.json.tmp" ∧
    withEnding "a.b.c" "tmp" = "a.b.tmp" ∧ withEnding ".hidden" "tmp" = ".hidden.tmp" ∧
    withEnding "a/b.c/./" "tmp" = "a/b.tmp" := by decide +kernel

end Admission.Path
