import AskLens.Django.Database

/-!
# The rows of a query set

Every call of `filter` opens its own joins of the to-many relations on its
paths, while to-one joins are shared. The expressions of `values`, `annotate`,
`aggregate` and `order_by` read the most recent join of a relation, and open one
where there is none.
-/
namespace AskLens.Django

open Python LeftJoin

/-! ## Table aliases -/

/-- A table of a query: that of the model, or one joined below another table. The joins of one
relation below one table are numbered in the order in which they are opened. -/
inductive TableAlias where
  | root
  | join (parent : TableAlias) (hop : Hop) (occurrence : ℕ)
deriving DecidableEq

namespace TableAlias

def parent : TableAlias → TableAlias
  | .root => .root
  | .join parent _ _ => parent

/-- The joins that `Query.join` may reuse for a relation below a table. -/
def isJoinOf (parent : TableAlias) (hop : Hop) : TableAlias → Bool
  | .root => false
  | .join p h _ => p = parent ∧ h = hop

/-- `Query.join`: the alias of one relation of a path. A filter call (`fresh`) does not reuse the
to-many joins of earlier calls; every other reference reuses the most recent one. -/
def step (fresh : Bool) (opened : List TableAlias) (parent : TableAlias) (hop : Hop) :
    TableAlias :=
  let count := opened.countP (isJoinOf parent hop)
  .join parent hop (if fresh && hop.toMany then count else count - 1)

/-- The aliases along a path. -/
def chain (fresh : Bool) (opened : List TableAlias) : TableAlias → List Hop → List TableAlias
  | _, [] => []
  | parent, hop :: rest =>
    let here := step fresh opened parent hop
    here :: chain fresh opened here rest

/-- The alias at the end of a path. -/
def reach (fresh : Bool) (opened : List TableAlias) (hops : List Hop) : TableAlias :=
  hops.foldl (step fresh opened) .root

end TableAlias

def openAliases (opened new : List TableAlias) : List TableAlias :=
  new.foldl (fun opened a => if a ∈ opened then opened else opened ++ [a]) opened

section Joins

variable (graph : ModelGraph) (model : ModelName)

def hopsOf (path : String) : List Hop := (referenceAt graph model path).hops

def crossesToMany (path : String) : Bool := (hopsOf graph model path).any Hop.toMany

def pathAliases (fresh : Bool) (opened : List TableAlias) (path : String) : List TableAlias :=
  TableAlias.chain fresh opened .root (hopsOf graph model path)

/-- The joins after a call. An `exclude` on a to-many path becomes a subquery with joins of its
own. -/
def openCall (opened : List TableAlias) : FilterCall → List TableAlias
  | .filter conditions =>
    openAliases opened (conditions.flatMap fun c => pathAliases graph model true opened c.path)
  | .exclude condition =>
    if crossesToMany graph model condition.path then opened
    else openAliases opened (pathAliases graph model true opened condition.path)

def filterAliases (calls : List FilterCall) : List TableAlias :=
  calls.foldl (openCall graph model) []

/-- The joins of a query that reads the paths after its filter calls. A path that opens the first
join of a relation leaves it the most recent one, so all paths see the joins of the filters. -/
def queryAliases (calls : List FilterCall) (paths : List String) : List TableAlias :=
  openAliases (filterAliases graph model calls)
    (paths.flatMap (pathAliases graph model false (filterAliases graph model calls)))

end Joins

/-! ## Rows -/

/-- A row as a join finds it, with its position: a relation may list one row several times. -/
abbrev JoinedRow (R : Type) := R × ℕ

abbrev QueryRow (R : Type) := Combination TableAlias (JoinedRow R)

section Rows

variable {graph : ModelGraph} {root : ModelName} {R V : Type}

theorem nodup_zipIdx (l : List R) : l.zipIdx.Nodup :=
  List.Nodup.of_map Prod.snd (List.nodup_zipIdx_map_snd l)

/-- The join that an alias stands for. -/
def Database.relatedAt (db : Database graph root R V) :
    TableAlias → JoinedRow R → List (JoinedRow R)
  | .root, _ => []
  | .join _ hop _, r => (db.related hop r.1).zipIdx

def Database.joinTree (db : Database graph root R V) : JoinTree TableAlias (JoinedRow R) where
  root := .root
  parent := TableAlias.parent
  related := db.relatedAt
  related_nodup := fun a r => by
    cases a with
    | root => exact List.nodup_nil
    | join => exact nodup_zipIdx _

/-- What a target reads under an alias; nothing when the join found no row. -/
def Database.readAt (db : Database graph root R V) (c : QueryRow R) (a : TableAlias)
    (target : ReadTarget) : Option V :=
  (c a).bind fun r => target.read db r.1

/-- The value of a path in a row, through the joins that it finds open. -/
def Database.readPath (db : Database graph root R V) (fresh : Bool) (opened : List TableAlias)
    (path : String) (c : QueryRow R) : Option V :=
  let reference := referenceAt graph root path
  db.readAt c (TableAlias.reach fresh opened reference.hops) reference.target

variable (b : Backend V)

/-- Whether some row that the path reaches from a row satisfies the condition. -/
def Database.existsRelated (db : Database graph root R V) (condition : Condition) (r : R) : Bool :=
  let reference := referenceAt graph root condition.path
  (db.reachable reference.hops r).any fun s => condition.holds b (reference.target.read db s)

/-- The constraint that a call puts on the joined rows. -/
def Database.callHolds (db : Database graph root R V) (opened : List TableAlias) (c : QueryRow R) :
    FilterCall → Bool
  | .filter conditions =>
    conditions.all fun condition => condition.holds b (db.readPath true opened condition.path c)
  | .exclude condition =>
    if crossesToMany graph root condition.path then
      (c .root).all fun r => !db.existsRelated b condition r.1
    else !condition.holds b (db.readPath true opened condition.path c)

/-- Whether a row meets the constraints of all calls. -/
def Database.passes (db : Database graph root R V) :
    List TableAlias → List FilterCall → QueryRow R → Bool
  | _, [], _ => true
  | opened, call :: rest, c =>
    db.callHolds b opened c call && db.passes (openCall graph root opened call) rest c

/-- The rows of a query that makes the calls and reads the paths. -/
def Database.queryRows (db : Database graph root R V) (calls : List FilterCall)
    (paths : List String) : List (QueryRow R) :=
  (db.joinTree.rows db.table.zipIdx (queryAliases graph root calls paths)).filter
    (db.passes b [] calls)

/-- The value of a path in a row of a query with the calls. -/
def Database.readExpression (db : Database graph root R V) (calls : List FilterCall)
    (path : String) (c : QueryRow R) : Option V :=
  db.readPath false (filterAliases graph root calls) path c

end Rows

end AskLens.Django
