import Toolbridge.Service.Push

/-!
# Pull paths

`PullComments`, `PullChatMessages` and `PullTaskListCategories` (package `syncservice`)
read one page of the owner's rows above a cursor: the rows of `Table.scan`, live rows as
their payload, tombstones as `{uid, deletedAt}`, and the cursor of the last row. They
differ only in the table, so they are one definition, `pullItems`, applied to each kind.
The pull paths of notes, tasks, chats and task lists are not among the sources and are
modelled as the same instance (§4.C, §9).

The handlers normalise the limit and decode the cursor before they call a pull. The gRPC
handler converts each item to a `structpb.Struct`, which every decoded JSON object is, so the
page is its answer as it stands.
-/

namespace Toolbridge

/-- A tombstone in a pull: `{"uid": uid, "deletedAt": RFC3339(deleted_at_ms)}`. -/
structure Tombstone where
  uid : String
  deletedAt : Rfc3339
  deriving DecidableEq, Repr

/-- `syncservice.PullResponse`. -/
structure PullResponse where
  upserts : List Json
  deletes : List Tombstone
  nextCursor : Option String
  deriving DecidableEq, Repr

/-- The answer for the rows a scan returned: each row goes to `upserts` or to `deletes`,
and `nextCursor` encodes `(lastMs, uuid.Parse(lastUID))` when any row came back. -/
def pullPage (rows : List Row) : PullResponse where
  upserts := rows.filterMap fun r => if r.deletedAtMs.isNone then some r.payloadJson else none
  deletes := rows.filterMap fun r => r.deletedAtMs.map fun d => ⟨r.uid.toString, rfc3339 d⟩
  nextCursor := rows.getLast?.map fun r =>
    encodeCursor ⟨r.updatedAtMs, (uuidParse r.uid.toString).1⟩

/-- `PullXs(ctx, userID, cursor, limit)`: one query, which the environment can break. -/
def pullItems (k : Kind) (f : Faults) (db : Db) (userID : String) (cursor : Cursor)
    (limit : Nat) : Except String PullResponse :=
  if f 0 then .error faultError else .ok (pullPage ((db.tables k).scan userID cursor limit))

/-- `CommentService.PullComments`. -/
def pullComments : Faults → Db → String → Cursor → Nat → Except String PullResponse :=
  pullItems .comment

/-- `ChatMessageService.PullChatMessages`. -/
def pullChatMessages : Faults → Db → String → Cursor → Nat → Except String PullResponse :=
  pullItems .chatMessage

/-- `TaskListCategoryService.PullTaskListCategories`. -/
def pullTaskListCategories : Faults → Db → String → Cursor → Nat → Except String PullResponse :=
  pullItems .taskListCategory

/-! ## Handlers -/

/-- The digits of a limit, after an optional `+`. -/
def limitDigits (s : String) : List Char :=
  match s.toList with
  | '+' :: cs => cs
  | cs => cs

/-- Modelled from the spec: `parseLimit(text, 500, 1000)` of the HTTP handlers (§4.D
"Limit normalization"): the decimal limit, capped; a missing, malformed, zero or negative
limit is the default. -/
def parseLimit (s : String) (dflt cap : Nat) : Nat :=
  match (limitDigits s).mapM digitVal? with
  | some (d :: ds) =>
    if ofDecDigits (d :: ds).reverse = 0 then dflt else min (ofDecDigits (d :: ds).reverse) cap
  | _ => dflt

/-- The gRPC normalisation: `limit <= 0` is 500, `limit > 1000` is 1000. -/
def grpcLimit (limit : Int) : Nat :=
  if limit ≤ 0 then 500 else if limit > 1000 then 1000 else limit.toNat

/-- The cursor a handler resumes from: the decoded one, or the origin. -/
def resumeCursor (s : String) : Cursor := (decodeCursor s).getD Cursor.origin

/-- `Server.PullTaskListCategories` and its HTTP siblings: 200 and the page, or 500. -/
def pullHandler (k : Kind) (f : Faults) (db : Db) (userID cursor limit : String) :
    Nat × Except String PullResponse :=
  match pullItems k f db userID (resumeCursor cursor) (parseLimit limit 500 1000) with
  | .ok resp => (200, .ok resp)
  | .error _ => (500, .error "pull failed")

/-- The gRPC `Pull` of the note, task, comment, chat and chat message services: the page, or
the status and text of the handler's error. -/
def grpcPull (k : Kind) (f : Faults) (db : Db) (userID cursor : String) (limit : Int) :
    Except (Code × String) PullResponse :=
  if userID = "" then .error (.unauthenticated, "missing user")
  else match pullItems k f db userID (resumeCursor cursor) (grpcLimit limit) with
    | .ok resp => .ok resp
    | .error _ => .error (.internal, "pull failed")

theorem parseLimit_pos (s : String) : 0 < parseLimit s 500 1000 ∧ parseLimit s 500 1000 ≤ 1000 := by
  unfold parseLimit
  split
  · split <;> omega
  · decide

example : parseLimit "10" 500 1000 = 10 ∧ parseLimit "-3" 500 1000 = 500 ∧
    parseLimit "5000" 500 1000 = 1000 := by decide

theorem grpcLimit_pos (limit : Int) : 0 < grpcLimit limit ∧ grpcLimit limit ≤ 1000 := by
  unfold grpcLimit; split_ifs <;> omega

end Toolbridge
