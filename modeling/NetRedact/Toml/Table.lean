import NetRedact.Toml.Value

/-!
# Building TOML tables

What lines and pairs may add to a table.  A header may name a table that earlier headers only
implied; a dotted key may reach only through tables that dotted keys made or headers implied; and
what stands between braces is complete.  A key is set once.
-/

namespace NetRedact.Toml

/-- Whether a path may pass through a table of origin `o`, where tables missing on the path are made
with the origin `made`. -/
def Origin.isOpenTo (o made : Origin) : Bool :=
  match o with
  | .inline => false
  | .header => made != .dotted
  | .implied => true
  | .dotted => true

/-- Changes the table at the end of a path.  Tables missing on the way are made with the origin
`made`; where repeated headers made several tables the path goes through the last one. -/
def alter (made : Origin) (change : Origin → Members → Option Members) :
    List Key → Origin → Members → Option Members
  | [], origin, members => change origin members
  | key :: path, _, members =>
    match members.lookup key with
    | none =>
      (alter made change path made []).map fun inner => members.set key (.table made inner)
    | some (.table origin inner) =>
      if origin.isOpenTo made then
        (alter made change path origin inner).map fun inner =>
          members.set key (.table origin inner)
      else none
    | some (.tables (.table origin inner :: earlier)) =>
      (alter made change path origin inner).map fun inner =>
        members.set key (.tables (.table origin inner :: earlier))
    | some _ => none

/-- Sets a key of a table, at the end of a path of dotted keys that is empty or not.  A path leads
only to tables that dotted keys made, and those only grow by dotted keys. -/
def setOnce (isDirect : Bool) (key : Key) (value : Value) (origin : Origin) (members : Members) :
    Option Members :=
  if (origin == .dotted) = isDirect then none
  else if (members.lookup key).isSome then none
  else some (members.set key value)

/-- Sets a dotted key of a table, given as its path and its last part. -/
def assign (path : List Key) (key : Key) (value : Value) (origin : Origin) (members : Members) :
    Option Members :=
  alter .dotted (setOnce path.isEmpty key value) path origin members

/-- Opens a table by its own header, at the end of a path. -/
def openTable (key : Key) (_ : Origin) (members : Members) : Option Members :=
  match members.lookup key with
  | none => some (members.set key (.table .header []))
  | some (.table .implied inner) => some (members.set key (.table .header inner))
  | some _ => none

/-- Opens one more table by a repeated header, at the end of a path. -/
def openElement (key : Key) (_ : Origin) (members : Members) : Option Members :=
  match members.lookup key with
  | none => some (members.set key (.tables [.table .header []]))
  | some (.tables elements) => some (members.set key (.tables (.table .header [] :: elements)))
  | some _ => none

/-- The members of an inline table with the given pairs. -/
def inlineMembers : Members → List (List Key × Key × Value) → Option Members
  | members, [] => some members
  | members, (path, key, value) :: rest => do
    let members ← assign path key value .inline members
    inlineMembers members rest

end NetRedact.Toml
