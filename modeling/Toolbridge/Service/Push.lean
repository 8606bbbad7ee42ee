import Toolbridge.Store.Tx

/-!
# Push paths

`PushCommentItem`, `PushChatMessageItem` and `PushTaskListCategoryItem` (package
`syncservice`) push one item inside the caller's transaction: extract the sync header,
validate the parent of a child kind, marshal the payload, run the LWW upsert and read
the row back for the ack. The three share their shape and differ in the table, the
extractor and the parent check, so they are one definition, `pushItem`, applied to each
kind's `ItemKind`.

The push paths of notes, tasks, chats and task lists (`PushNoteItem` and its siblings)
are not among the sources; the spec gives every kind the same shape (§4.G, §9
"Duplicate code across entity kinds"), and they are modelled as the root-kind instance.

The handlers (`PushNotes`, `PushChats`, `PushTaskLists`, `PushTaskListCategories`, and
the gRPC `Push` of each service) run the loop over a batch in one transaction.
-/

namespace Toolbridge

/-- `syncservice.PushAck`: the answer for one pushed item. `updatedAt` is `none` for the
empty text of an item whose header could not be read. -/
structure PushAck where
  uid : String
  version : Int
  updatedAt : Option Rfc3339
  error : String
  deriving DecidableEq, Repr

/-- The table a parent reference points into. -/
def ParentRef.table : ParentRef → Option Kind
  | .none => Option.none
  | .parent ty _ => some (if ty = "note" then .note else .task)
  | .chat _ => some .chat

/-! ## Statements of a push -/

/-- The LWW upsert of `new` into the table of kind `k`. -/
def upsertStmt (k : Kind) (new : Row) : Stmt Unit := fun db =>
  ((db.tables k).upsert new).map fun t => ((), db.setTable k t)

/-- `SELECT version, updated_at_ms FROM <k> WHERE uid = $1 AND owner_id = $2`. -/
def readBackStmt (k : Kind) (o : String) (u : Uuid) : Stmt (Option (Int × Int)) := fun db =>
  .ok (((db.tables k).find o u).map fun r => (r.version, r.updatedAtMs), db)

/-- `SELECT EXISTS(SELECT 1 FROM <k> WHERE owner_id = $1 AND uid = $2 AND deleted_at_ms IS
NULL)`. -/
def liveRowStmt (k : Kind) (o : String) (u : Uuid) : Stmt Bool := fun db =>
  .ok ((db.tables k).isLive o u, db)

/-! ## One item -/

/-- What sets one kind's push path apart: its table and its extractor. Extraction errors
are non-empty (an ack with an empty error reads as a success), and the extractor never
names a parent in the kind's own table. -/
structure ItemKind where
  table : Kind
  extract : Json → Except String (Extracted × ParentRef)
  extract_error : ∀ {item e}, extract item = .error e → e ≠ ""
  extract_parent : ∀ {item ext p}, extract item = .ok (ext, p) → p.table ≠ some table

/-- The ack of an item that failed after its header was read: the client's own uid,
version and timestamp, and the error. -/
def Extracted.ackError (ext : Extracted) (e : String) : PushAck :=
  ⟨ext.uid.toString, ext.version, some (rfc3339 ext.updatedAtMs), e⟩

/-- The row the upsert of an item offers: its header, owner, payload and parent columns. -/
def Extracted.toRow (ext : Extracted) (o : String) (payload : Json) (p : ParentRef) : Row :=
  ⟨ext.uid, o, ext.updatedAtMs, ext.deletedAtMs, ext.version, payload, p⟩

/-- A parent probe: `SELECT EXISTS(...)` on the parent's table, answered by the text of a
failed query, the text of a missing parent, or nothing when the parent is live. -/
def checkParent (f : Faults) (t : Tx) (k : Kind) (userID : String) (u : Uuid)
    (failed missing : String) : Option String × Tx :=
  match t.exec f (liveRowStmt k userID u) with
  | (.error _, t) => (some failed, t)
  | (.ok live, t) => (if live then none else some missing, t)

/-- The parent checks of the child kinds, before any write. A comment's `parent_type`
must be `note` or `task`; a live (non-tombstone) comment or chat message needs a live
parent of the same owner. The error texts are the sources'. -/
def validateParent (f : Faults) (t : Tx) (userID : String) (ext : Extracted) :
    ParentRef → Option String × Tx
  | .none => (none, t)
  | .chat cu =>
    if ext.deletedAtMs.isSome then (none, t)
    else checkParent f t .chat userID cu "failed to validate parent chat"
      ("parent chat not found: " ++ cu.toString)
  | .parent ty pu =>
    if ty ≠ "note" ∧ ty ≠ "task" then
      (some ("invalid parent_type: " ++ ty ++ " (must be 'note' or 'task')"), t)
    else if ext.deletedAtMs.isSome then (none, t)
    else checkParent f t (if ty = "note" then .note else .task) userID pu
      "failed to validate parent" ("parent " ++ ty ++ " not found: " ++ pu.toString)

/-- Whether pgx can encode a Go `int` as the `int4` parameter `$5` of the upsert. -/
def fitsInt4 (v : Int) : Bool := -2 ^ 31 ≤ v ∧ v ≤ int4Max

/-- pgx's error for a version the `int4` parameter cannot hold; nothing is sent. -/
def int4EncodeError : String := "unable to encode version into binary format for int4 (OID 23)"

/-- The write half of `PushXItem`: marshal the payload, run the LWW upsert, and read the
row back for the server-authoritative version and timestamp. -/
def writeItem (k : Kind) (f : Faults) (t : Tx) (userID : String) (item : Json)
    (ext : Extracted) (p : ParentRef) : PushAck × Tx :=
  match jsonMarshal item with
  | .error _ => (ext.ackError "payload serialization error", t)
  | .ok payload =>
    if !fitsInt4 ext.version then (ext.ackError int4EncodeError, t)
    else match t.exec f (upsertStmt k (ext.toRow userID payload p)) with
      | (.error e, t) => (ext.ackError e, t)
      | (.ok (), t) => match t.exec f (readBackStmt k userID ext.uid) with
        | (.ok (some (v, ms)), t) => (⟨ext.uid.toString, v, some (rfc3339 ms), ""⟩, t)
        | (_, t) => (ext.ackError "failed to confirm write", t)

/-- The check half of `PushXItem`: extract the header and validate the parent. It gives the
header to write, or the ack of an item the checks reject. -/
def checkItem (d : ItemKind) (f : Faults) (t : Tx) (userID : String) (item : Json) :
    Except PushAck (Extracted × ParentRef) × Tx :=
  match d.extract item with
  | .error e => (.error ⟨"", 0, none, e⟩, t)
  | .ok (ext, p) =>
    match validateParent f t userID ext p with
    | (some e, t) => (.error (ext.ackError e), t)
    | (none, t) => (.ok (ext, p), t)

/-- `PushXItem(ctx, tx, userID, item)`: one item inside the caller's transaction, its checks
and then its write. -/
def pushItem (d : ItemKind) (f : Faults) (t : Tx) (userID : String) (item : Json) :
    PushAck × Tx :=
  match checkItem d f t userID item with
  | (.error ack, t) => (ack, t)
  | (.ok (ext, p), t) => writeItem d.table f t userID item ext p

/-! ## The kinds -/

theorem extractRoot_parent {item : Json} {ext : Extracted} {p : ParentRef}
    (h : extractRoot item = .ok (ext, p)) : p = .none := by
  simp only [extractRoot, Except.map] at h
  cases hc : extractCommon item <;> simp only [hc, Except.ok.injEq, Prod.mk.injEq] at h
  · cases h
  · exact h.2.symm

theorem extractComment_parent {item : Json} {ext : Extracted} {p : ParentRef}
    (h : extractComment item = .ok (ext, p)) : ∃ ty u, p = .parent ty u := by
  unfold extractComment at h
  cases hc : extractCommon item with
  | error e => simp [hc, bind, Except.bind] at h
  | ok a =>
    cases hu : getUuid item "parentUid" with
    | error e => simp [hc, hu, bind, Except.bind] at h
    | ok u =>
      simp only [hc, hu, bind, Except.bind, pure, Except.pure, Except.ok.injEq,
        Prod.mk.injEq] at h
      exact ⟨_, _, h.2.symm⟩

theorem extractChatMessage_parent {item : Json} {ext : Extracted} {p : ParentRef}
    (h : extractChatMessage item = .ok (ext, p)) : ∃ u, p = .chat u := by
  unfold extractChatMessage at h
  cases hc : extractCommon item with
  | error e => simp [hc, bind, Except.bind] at h
  | ok a =>
    cases hu : getUuid item "chatUid" with
    | error e => simp [hc, hu, bind, Except.bind] at h
    | ok u =>
      simp only [hc, hu, bind, Except.bind, pure, Except.pure, Except.ok.injEq,
        Prod.mk.injEq] at h
      exact ⟨_, h.2.symm⟩

/-- A root kind: the header alone, no parent. -/
def rootItems (k : Kind) : ItemKind where
  table := k
  extract := extractRoot
  extract_error h := by
    obtain ⟨d, rfl⟩ := extract_error (.inl h)
    exact invalidPayload_ne_empty d
  extract_parent h := by simp [extractRoot_parent h, ParentRef.table]

/-- Comments: the parent is a note or a task. -/
def commentItems : ItemKind where
  table := .comment
  extract := extractComment
  extract_error h := by
    obtain ⟨d, rfl⟩ := extract_error (.inr (.inl h))
    exact invalidPayload_ne_empty d
  extract_parent h := by
    obtain ⟨ty, u, rfl⟩ := extractComment_parent h
    by_cases hty : ty = "note" <;> simp [ParentRef.table, hty]

/-- Chat messages: the parent is a chat. -/
def chatMessageItems : ItemKind where
  table := .chatMessage
  extract := extractChatMessage
  extract_error h := by
    obtain ⟨d, rfl⟩ := extract_error (.inr (.inr h))
    exact invalidPayload_ne_empty d
  extract_parent h := by
    obtain ⟨u, rfl⟩ := extractChatMessage_parent h
    simp [ParentRef.table]

/-- `CommentService.PushCommentItem`. -/
def pushCommentItem : Faults → Tx → String → Json → PushAck × Tx := pushItem commentItems

/-- `ChatMessageService.PushChatMessageItem`. -/
def pushChatMessageItem : Faults → Tx → String → Json → PushAck × Tx :=
  pushItem chatMessageItems

/-- `TaskListCategoryService.PushTaskListCategoryItem`. -/
def pushTaskListCategoryItem : Faults → Tx → String → Json → PushAck × Tx :=
  pushItem (rootItems .taskListCategory)

/-- Modelled from the spec: `NoteService.PushNoteItem` (not among the sources), the
root-kind push path of §4.G. -/
def pushNoteItem : Faults → Tx → String → Json → PushAck × Tx := pushItem (rootItems .note)

/-- Modelled from the spec: `TaskService.PushTaskItem`, the root-kind push path. -/
def pushTaskItem : Faults → Tx → String → Json → PushAck × Tx := pushItem (rootItems .task)

/-- Modelled from the spec: `ChatService.PushChatItem`, the root-kind push path. -/
def pushChatItem : Faults → Tx → String → Json → PushAck × Tx := pushItem (rootItems .chat)

/-- Modelled from the spec: `TaskListService.PushTaskListItem`, the root-kind push path. -/
def pushTaskListItem : Faults → Tx → String → Json → PushAck × Tx :=
  pushItem (rootItems .taskList)

/-- The push path of every kind. -/
def Kind.items : Kind → ItemKind
  | .comment => commentItems
  | .chatMessage => chatMessageItems
  | k => rootItems k

/-! ## Batches -/

/-- `for _, item := range req.Items { acks = append(acks, PushXItem(ctx, tx, userID, item)) }`. -/
def pushLoop (d : ItemKind) (f : Faults) (userID : String) : Tx → List Json → List PushAck × Tx
  | t, [] => ([], t)
  | t, item :: items =>
    let r := pushItem d f t userID item
    let rest := pushLoop d f userID r.2 items
    (r.1 :: rest.1, rest.2)

/-- The ack list of a failed batch: one ack carrying the error. -/
def batchError (e : String) : List PushAck := [⟨"", 0, none, e⟩]

/-- `Server.PushNotes` and its siblings (`PushChats`, `PushTaskLists`,
`PushTaskListCategories`): the batch in one transaction, answered with a status code and
the acks. Decoding the JSON body precedes what we model. -/
def pushHandler (d : ItemKind) (f : Faults) (db : Db) (userID : String) (items : List Json) :
    (Nat × List PushAck) × Db :=
  if f 0 then ((500, batchError "transaction error"), db)
  else
    let r := pushLoop d f userID (Tx.begin db) items
    match r.2.commit f with
    | .error _ => ((500, batchError "commit failed"), db)
    | .ok db' => ((200, r.1), db')

/-- `Server.PushNotes`. -/
def pushNotes : Faults → Db → String → List Json → (Nat × List PushAck) × Db :=
  pushHandler (rootItems .note)

/-- `Server.PushChats`. -/
def pushChats : Faults → Db → String → List Json → (Nat × List PushAck) × Db :=
  pushHandler (rootItems .chat)

/-- `Server.PushTaskLists`. -/
def pushTaskLists : Faults → Db → String → List Json → (Nat × List PushAck) × Db :=
  pushHandler (rootItems .taskList)

/-- `Server.PushTaskListCategories`. -/
def pushTaskListCategories : Faults → Db → String → List Json → (Nat × List PushAck) × Db :=
  pushHandler (rootItems .taskListCategory)

/-- A gRPC status code. -/
inductive Code where
  | unauthenticated
  | invalidArgument
  | notFound
  | permissionDenied
  | internal
  deriving DecidableEq, Repr

/-- `syncv1.PushAck`: the service ack with its version narrowed by `int32(...)` and its
timestamp parsed back. -/
structure GrpcAck where
  uid : String
  version : Int
  error : String
  updatedAt : Option Rfc3339
  deriving DecidableEq, Repr

/-- Go's `int32(v)`: two's-complement wrap-around. -/
def toInt32 (v : Int) : Int := (v + 2 ^ 31) % 2 ^ 32 - 2 ^ 31

/-- The gRPC form of a service ack. -/
def PushAck.toGrpc (a : PushAck) : GrpcAck := ⟨a.uid, toInt32 a.version, a.error, a.updatedAt⟩

/-- The gRPC `Push` of the note, task, comment, chat and chat message services. -/
def grpcPush (d : ItemKind) (f : Faults) (db : Db) (userID : String) (items : List Json) :
    Except (Code × String) (List GrpcAck) × Db :=
  if userID = "" then (.error (.unauthenticated, "missing user"), db)
  else if f 0 then (.error (.internal, "db error"), db)
  else
    let r := pushLoop d f userID (Tx.begin db) items
    match r.2.commit f with
    | .error _ => (.error (.internal, "commit error"), db)
    | .ok db' => (.ok (r.1.map PushAck.toGrpc), db')

end Toolbridge
