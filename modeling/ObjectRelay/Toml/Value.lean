namespace ObjectRelay.Toml

/-- How a table came to be, which decides what may still be added to it: written
out between braces, opened by a header, or implied by the path of a header or of
a key. -/
inductive Origin where
  | braces
  | header
  | headerPath
  | keyPath
deriving DecidableEq

/-- Dates, times and numbers with a fraction are kept as they are written. -/
inductive Value where
  | text (text : String)
  | integer (value : Int)
  | decimal (text : String)
  | boolean (value : Bool)
  | moment (text : String)
  | array (values : List Value)
  | tables (tables : List (List (String × Value)))
  | table (origin : Origin) (entries : List (String × Value))

abbrev Entries := List (String × Value)

namespace Entries

def get? (entries : Entries) (key : String) : Option Value :=
  entries.lookup key

/-- Puts what `change` makes of the value under a key in its place, or behind
all others. -/
def alter? (key : String) (change : Option Value → Option Value) :
    Entries → Option Entries
  | [] => (change none).map fun value => [(key, value)]
  | (held, value) :: rest =>
      if held = key then (change (some value)).map fun value =>
        (key, value) :: rest
      else (alter? key change rest).map ((held, value) :: ·)

def onLast? (change : Entries → Option Entries) :
    List Entries → Option (List Entries)
  | [] => none
  | [last] => (change last).map ([·])
  | first :: rest => (onLast? change rest).map (first :: ·)

/-- Changes the value at the end of a path, with a new table for each missing
step. -/
def alterPath? (change : Option Value → Option Value) :
    List String → Entries → Option Entries
  | [], _ => none
  | [key], entries => alter? key change entries
  | step :: path, entries =>
      entries.alter? step fun
        | none => (alterPath? change path []).map (.table .headerPath)
        | some (.table .braces _) => none
        | some (.table origin inner) =>
          (alterPath? change path inner).map (.table origin)
        | some (.tables tables) =>
          (onLast? (alterPath? change path) tables).map .tables
        | some _ => none

/-- A header opens a table once; that it was on the path of another is no
obstacle. -/
def openTable? : List String → Entries → Option Entries :=
  alterPath? fun
    | none => some (.table .header [])
    | some (.table .headerPath inner) => some (.table .header inner)
    | some _ => none

def appendTable? : List String → Entries → Option Entries :=
  alterPath? fun
    | none => some (.tables [[]])
    | some (.tables tables) => some (.tables (tables ++ [[]]))
    | some _ => none

/-- Adds a value under a key of one or more steps.  The table that gets the
value must be the one at hand or one that only key paths made. -/
def define? (value : Value) : List String → Entries → Option Entries
  | [], _ => none
  | [key], entries =>
      entries.alter? key fun
        | none => some value
        | some _ => none
  | step :: path, entries =>
      entries.alter? step fun
        | none => (define? value path []).map (.table .keyPath)
        | some (.table .keyPath inner) =>
          (define? value path inner).map (.table .keyPath)
        | some (.table .headerPath inner) =>
            if path.length < 2 then none
            else (define? value path inner).map (.table .headerPath)
        | some (.tables tables) =>
            if path.length < 2 then none
            else (onLast? (define? value path) tables).map .tables
        | some _ => none

/-- Changes the table that the path of a header leads to. -/
def within? (change : Entries → Option Entries) (path : List String)
    (entries : Entries) : Option Entries :=
  if path.isEmpty then change entries
  else entries.alterPath? (fun
    | some (.table origin inner) => (change inner).map (.table origin)
    | some (.tables tables) => (onLast? change tables).map .tables
    | _ => none) path

end Entries

end ObjectRelay.Toml
