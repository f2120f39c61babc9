import SafetyHub.Json.Basic

/-!
# Tables of settings documents

A table is defined piece by piece: by entries, whose keys may lead into tables within it, and by
headers, each of which opens a table or adds one to an array of tables.  No table is opened
twice, and dotted keys lead only into tables that dotted keys have made; a header may open a
table that so far was only implied by longer headers.  A value with brackets or braces of its
own is closed: nothing adds to it.
-/

namespace SafetyHub.Toml

/-- How a table came about. -/
inductive Origin where
  /-- By a header, or by braces, or as the document itself. -/
  | opened
  /-- By a dotted key. -/
  | dotted
  /-- By a longer header. -/
  | implied
deriving DecidableEq, Repr

/-- What a key of a table stands for. -/
inductive Item where
  | value (v : Json)
  | table (origin : Origin) (entries : List (String × Item))
  /-- Tables that headers add, the last one first. -/
  | tables (last : List (String × Item)) (others : List (List (String × Item)))

/-- The keys of a table, each once, and what they stand for. -/
abbrev Table := List (String × Item)

namespace Table

/-- Replaces what a key stands for, or gives a new key something to stand for. -/
def alter? (t : Table) (key : String) (f : Option Item → Option Item) : Option Table :=
  match t with
  | [] => (f none).map fun item => [(key, item)]
  | (k, item) :: rest =>
    if k == key then (f (some item)).map fun item => (k, item) :: rest
    else (alter? rest key f).map ((k, item) :: ·)

/-- Changes the table that a path leads to, making the tables that are missing.  Where headers
have made an array of tables, the path leads into the last of them.  A dotted path does not
lead through tables that are opened. -/
def within? (isDotted : Bool) (f : Origin → Table → Option Table) :
    (path : List String) → Origin → Table → Option Table
  | [], origin, t => f origin t
  | key :: path, _, t =>
    let made := if isDotted then Origin.dotted else Origin.implied
    t.alter? key fun
      | none => (within? isDotted f path made []).map (.table made)
      | some (.value _) => none
      | some (.tables last others) =>
        (within? isDotted f path .opened last).map (.tables · others)
      | some (.table origin entries) =>
        if isDotted && origin == .opened then none
        else (within? isDotted f path origin entries).map (.table origin)

/-- Adds a key that the table does not have. -/
def add? (t : Table) (key : String) (v : Json) : Option Table :=
  t.alter? key fun
    | none => some (.value v)
    | some _ => none

/-- Adds an entry: its key is the last part of a dotted path. -/
def insert? (t : Table) (path : List String) (v : Json) : Option Table :=
  match path.getLast? with
  | none => none
  | some key =>
    let leading := path.dropLast
    within? true (fun origin t =>
      if leading.isEmpty || origin == .dotted then t.add? key v else none) leading .opened t

/-- Adds an entry to the table that a header's path leads to. -/
def insertAt? (t : Table) (current path : List String) (v : Json) : Option Table :=
  within? false (fun _ t => t.insert? path v) current .opened t

/-- Opens the table of a header. -/
def open? (t : Table) (path : List String) : Option Table :=
  match path.getLast? with
  | none => none
  | some key => within? false (fun _ t => t.alter? key fun
      | none => some (.table .opened [])
      | some (.table .implied entries) => some (.table .opened entries)
      | some _ => none) path.dropLast .opened t

/-- Adds a table to the array of a header. -/
def append? (t : Table) (path : List String) : Option Table :=
  match path.getLast? with
  | none => none
  | some key => within? false (fun _ t => t.alter? key fun
      | none => some (.tables [] [])
      | some (.tables last others) => some (.tables [] (last :: others))
      | some _ => none) path.dropLast .opened t

end Table

mutual

/-- The value of an item. -/
def Item.toJson : Item → Json
  | .value v => v
  | .table _ t => .object (members t)
  | .tables last others => .array (objects others [.object (members last)])

/-- The members of a table's value. -/
def members : List (String × Item) → List (Option String × Json)
  | [] => []
  | (key, item) :: rest => (some key, item.toJson) :: members rest

/-- The values of tables, the last one first, in front of others. -/
def objects : List (List (String × Item)) → List Json → List Json
  | [], after => after
  | t :: ts, after => objects ts (.object (members t) :: after)

end

/-- The value of a table. -/
def Table.toJson (t : Table) : Json :=
  .object (members t)

end SafetyHub.Toml
