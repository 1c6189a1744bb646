/-
Tables of a TOML document, and the rules by which keys and headers add to
them.
-/

namespace CheckScript
namespace Toml

/-- How a table has come about, which decides what may still be added to it: by
the header of a table below it, by a dotted key, by its own header, or as one
value. -/
inductive Origin where
  | implied
  | dotted
  | header
  | inline
deriving DecidableEq, Repr

/-- A value of a document.  The value of a fraction, a date or a time is not
kept, since no setting has one.  Tables with a doubled header make a list. -/
inductive Node where
  | string (s : String)
  | integer (n : Int)
  | boolean (b : Bool)
  | fraction
  | moment
  | array (items : List Node)
  | table (origin : Origin) (entries : List (String × Node))
  | tables (items : List (List (String × Node)))

abbrev Entries := List (String × Node)

abbrev Key := List String

def lookup (name : String) : Entries → Option Node
  | [] => none
  | (n, node) :: entries => if n = name then some node else lookup name entries

def put (name : String) (node : Node) : Entries → Entries
  | [] => [(name, node)]
  | (n, old) :: entries =>
    if n = name then (n, node) :: entries else (n, old) :: put name node entries

/-- Set a key that is not there yet.  A dotted key may add to tables made by
dotted keys, and may pass through a table that a header has implied and through
the last of a list of tables. -/
def insert (value : Node) : Key → Entries → Option Entries
  | [], _ => none
  | [name], entries =>
    match lookup name entries with
    | none => some (put name value entries)
    | some _ => none
  | name :: next :: names, entries =>
    match lookup name entries with
    | none =>
      (insert value (next :: names) []).map fun below => put name (.table .dotted below) entries
    | some (.table .dotted old) =>
      (insert value (next :: names) old).map fun below => put name (.table .dotted below) entries
    | some (.table .implied old) =>
      if names.isEmpty then none
      else
        (insert value (next :: names) old).map fun below =>
          put name (.table .implied below) entries
    | some (.tables items) =>
      if names.isEmpty then none
      else
        (insert value (next :: names) (items.getLast?.getD [])).map fun below =>
          put name (.tables (items.dropLast ++ [below])) entries
    | some _ => none

/-- Insert key after key. -/
def insertAll (entries : Entries) : List (Key × Node) → Option Entries
  | [] => some entries
  | (key, value) :: rest => (insert value key entries).bind fun es => insertAll es rest

/-- Change what a header names.  The tables above it are implied as far as they
are missing, and of a list of tables the last is meant. -/
def alter (change : Option Node → Option Node) : Key → Entries → Option Entries
  | [], _ => none
  | [name], entries => (change (lookup name entries)).map fun node => put name node entries
  | name :: next :: names, entries =>
    match lookup name entries with
    | none =>
      (alter change (next :: names) []).map fun below => put name (.table .implied below) entries
    | some (.table .inline _) => none
    | some (.table origin old) =>
      (alter change (next :: names) old).map fun below => put name (.table origin below) entries
    | some (.tables items) =>
      match items.getLast? with
      | none => none
      | some last =>
        (alter change (next :: names) last).map fun below =>
          put name (.tables (items.dropLast ++ [below])) entries
    | some _ => none

/-- A table with a header is new, or has been implied by those below it. -/
def tableAt (values : List (Key × Node)) : Option Node → Option Node
  | none => (insertAll [] values).map (.table .header)
  | some (.table .implied below) => (insertAll below values).map (.table .header)
  | some _ => none

def tablesAt (values : List (Key × Node)) : Option Node → Option Node
  | none => (insertAll [] values).map fun t => .tables [t]
  | some (.tables items) => (insertAll [] values).map fun t => .tables (items ++ [t])
  | some _ => none

end Toml
end CheckScript
