import Mathlib.Data.Rat.Defs

/-!
# Vigabss.Tenancy.Crud — the generated handlers

`BaseModel.js`, for the models with `hasOrgScope`, under the handlers of `crudController.js` without
hooks, and `assertOwnedReferences`.  All organizations are in the same tables.
-/

namespace Vigabss.Tenancy

/-- A value that is not NULL. -/
inductive Value where
  | number (x : ℚ)
  | text (s : String)
  deriving DecidableEq

structure Row where
  id : ℕ
  organization_id : Option ℕ
  /-- `deleted_at IS NOT NULL`. -/
  deleted : Bool
  columns : String → Option Value

def Row.value (r : Row) (col : String) : Option Value :=
  if col = "id" then some (.number r.id)
  else if col = "organization_id" then r.organization_id.map (.number ·)
  else r.columns col

/-- What the database decides: `a = b`, and the order of rows by a column. -/
structure Mysql where
  equal : Value → Value → Bool
  orderBy : String → Bool → List Row → List Row

/-- The rows of each table. -/
abbrev Db := String → List Row

/-- Where a reference points; the users have a rule of their own. -/
structure Ref where
  table : String
  allowShared : Bool
  notUsers : table ≠ "users"

/-- A model with `hasOrgScope`, with the references of its handlers and of the foreign keys. -/
structure Model where
  tableName : String
  fillable : List String
  filterableColumns : List String
  sortable : List String
  businessDateColumns : List String
  /-- The DEFAULT of a column. -/
  default : String → Option Value
  softDelete : Bool
  deactivateOnDelete : List (String × Value)
  ownedRefs : List (String × Ref)
  defaultRefs : List (String × Ref)
  orgFillable : "organization_id" ∈ fillable

/-- A field of the body is `undefined`, `null` or a value. -/
abbrev Body := String → Option (Option Value)

inductive Failure where
  | notFound (tableName : String)
  | foreignReference (field : String)
  | orgImmutable
  | noSoftDelete
  /-- `record.id` of a record that is `null`. -/
  | typeError

inductive Response where
  | list (data : List Row) (total page limit totalPages : ℕ)
  | record (r : Row)
  | created (r : Row)
  | noContent
  | failed (f : Failure)

/-- `UPDATE`, or `DELETE` where `f` gives no row. -/
def Db.write (t : String) (p : Row → Bool) (f : Row → Option Row) (db : Db) : Db :=
  Function.update db t ((db t).filterMap fun r => if p r then f r else some r)

variable (sql : Mysql)

/-- `id = ? AND organization_id = ?`. -/
def named (id : Value) (o : ℕ) (r : Row) : Bool :=
  sql.equal (.number r.id) id && r.organization_id = some o

/-- `AND deleted_at IS NULL`, where rows are deleted softly. -/
def Model.live (m : Model) (r : Row) : Bool := !(m.softDelete && r.deleted)

/-- `findById(id, orgId)`. -/
def findById (m : Model) (id : Value) (o : ℕ) (db : Db) : Option Row :=
  (db m.tableName).find? fun r => named sql id o r && m.live r

/-- `res.json({ data })` of a record that was read. -/
def answer (f : Failure) : Option Row → Response
  | some r => .record r
  | none => .failed f

/-- A check, which may throw, and what comes after it. -/
def guarded (check : Db → Option Failure) (next : Db → Db × Response) (db : Db) : Db × Response :=
  match check db with
  | some f => (db, .failed f)
  | none => next db

/-- `assertOwnedReferences(body, orgId, refs)`. -/
def assertOwned (body : Body) (o : ℕ) (refs : List (String × Ref)) (db : Db) : Option Failure :=
  (refs.find? fun p =>
    match body p.1 with
    | some (some v) => v ≠ .text "" && ((db p.2.table).find? fun r =>
        sql.equal (.number r.id) v && !r.deleted &&
          (r.organization_id = some o || p.2.allowShared && r.organization_id = none)).isNone
    | _ => false).map fun p => .foreignReference p.1

/-- No row is found, or affected. -/
def missing (m : Model) (p : Row → Bool) (db : Db) : Option Failure :=
  if ((db m.tableName).find? p).isNone then some (.notFound m.tableName) else none

/-- A write that must have a row, and what comes after it. -/
def written (m : Model) (p : Row → Bool) (f : Row → Option Row) (next : Db → Response) :
    Db → Db × Response :=
  guarded (missing m p) fun db =>
    let db' := db.write m.tableName p f
    (db', next db')

/-- The query of a list, with `page` and `limit` as `parseInt` reads them. -/
structure Query where
  page : Option ℤ
  limit : Option ℤ
  order_by : Option String
  desc : Bool
  include_deleted : Bool
  only_deleted : Bool
  filters : List (String × Value)

/-- `parseInt(text, 10) || fallback`, and at least one. -/
def atLeastOne (n : Option ℤ) (fallback : ℕ) : ℕ :=
  if n.getD 0 = 0 then fallback else (max 1 (n.getD 0)).toNat

/-- The `WHERE` of `findAll` and `count`. -/
def listed (m : Model) (o : ℕ) (q : Query) (db : Db) : List Row :=
  if q.only_deleted && !m.softDelete then []
  else (db m.tableName).filter fun r => r.organization_id = some o &&
    (if m.softDelete && q.only_deleted then r.deleted
      else if q.include_deleted then true else m.live r) &&
    q.filters.all fun p =>
      !(p.1 ∈ m.fillable || p.1 ∈ m.filterableColumns || p.1 = "id" || p.1 = "organization_id") ||
        (r.value p.1).any (sql.equal · p.2)

/-- `list`. -/
def list (m : Model) (o : ℕ) (q : Query) (db : Db) : Response :=
  let page := atLeastOne q.page 1
  let limit := min (atLeastOne q.limit 50) 100
  let rows := listed sql m o q db
  let column := (q.order_by.filter (· ∈ m.sortable)).getD "id"
  .list (((sql.orderBy column q.desc rows).drop ((page - 1) * limit)).take limit) rows.length page
    limit ((rows.length + limit - 1) / limit)

/-- The row of a body with `organization_id` set; `today` is the business day. -/
def Model.filled (m : Model) (id o : ℕ) (body : Body) (today : Value) : Row where
  id := id
  organization_id := some o
  deleted := false
  columns col :=
    let given := if col ∈ m.fillable then body col else none
    if col ∈ m.businessDateColumns && (given = none || given = some none) then some today
    else given.getD (m.default col)

/-- `create`; the database hands out `id`, and the row is read back by it. -/
def create (m : Model) (o id : ℕ) (body : Body) (today : Value) : Db → Db × Response :=
  guarded (assertOwned sql body o m.ownedRefs) <| guarded (assertOwned sql body o m.defaultRefs)
    fun db =>
      let r := m.filled id o body today
      (Function.update db m.tableName (db m.tableName ++ [r]), .created r)

/-- `update` and `partialUpdate`. -/
def update (m : Model) (o : ℕ) (id : Value) (body : Body) : Db → Db × Response :=
  guarded (assertOwned sql body o m.ownedRefs) <|
  guarded (fun _ => if (body "organization_id").isSome then some .orgImmutable else none) <|
  guarded (missing m fun r => named sql id o r && m.live r) <|
  guarded (assertOwned sql body o m.defaultRefs) <|
  if m.fillable.all fun col => body col = none then
    fun db => (db, answer (.notFound m.tableName) (findById sql m id o db))
  else
    written m (fun r => named sql id o r && m.live r)
      (fun r => some { r with columns := fun col =>
        if col ∈ m.fillable then (body col).getD (r.columns col) else r.columns col })
      fun db => answer .typeError (findById sql m id o db)

/-- `destroy`. -/
def destroy (m : Model) (o : ℕ) (id : Value) : Db → Db × Response :=
  guarded (missing m fun r => named sql id o r && m.live r) <|
  written m (fun r => named sql id o r && m.live r)
    (fun r => if m.softDelete then
        some { r with
          deleted := true
          columns := fun col => (m.deactivateOnDelete.lookup col <|> r.columns col) }
      else none)
    fun _ => .noContent

/-- `restore`. -/
def restore (m : Model) (o : ℕ) (id : Value) : Db → Db × Response :=
  guarded (fun _ => if m.softDelete then none else some .noSoftDelete) <|
  written m (fun r => named sql id o r && r.deleted) (fun r => some { r with deleted := false })
    fun db => answer .typeError (findById sql m id o db)

inductive Action where
  | list (q : Query)
  | get (id : Value)
  | create (id : ℕ) (body : Body) (today : Value)
  | update (id : Value) (body : Body)
  | destroy (id : Value)
  | restore (id : Value)

/-- A request of a user of `organization`. -/
structure Request where
  organization : ℕ
  model : Model
  action : Action

def handle (req : Request) (db : Db) : Db × Response :=
  match req.action with
  | .list q => (db, list sql req.model req.organization q db)
  | .get id =>
    (db, answer (.notFound req.model.tableName) (findById sql req.model id req.organization db))
  | .create id body today => create sql req.model req.organization id body today db
  | .update id body => update sql req.model req.organization id body db
  | .destroy id => destroy sql req.model req.organization id db
  | .restore id => restore sql req.model req.organization id db

end Vigabss.Tenancy
