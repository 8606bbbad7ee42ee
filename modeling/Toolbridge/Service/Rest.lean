import Toolbridge.Service.Push
import Toolbridge.Store.Scan

/-!
# The REST layer of task list categories

`TaskListCategoryService` (package `syncservice`) serves single items to the REST
endpoints: `GetTaskListCategory`, `ListTaskListCategories`, and
`ApplyTaskListCategoryMutation`, which writes one category with optimistic concurrency
(§4.I). A mutation opens a transaction, probes the stored `(updated_at_ms, version)`,
rejects a stale `ExpectedVersion`, stamps the payload with a server timestamp, delegates
the write to the push path, patches `payload.sync.version` to the version the push
returned, and commits.

The mutation is cut where the source's comments cut it: `mutationProbe` runs up to the
version check and `mutationWrite` from the timestamp to the patch. An interleaving of
two mutations (`Toolbridge.Service.Interleave`) runs the halves as separate steps.
-/

namespace Toolbridge

/-- `syncservice.MutationOpts`. -/
structure MutationOpts where
  enforceVersion : Bool
  expectedVersion : Int
  forceTimestampMs : Option Int
  setDeleted : Bool
  deriving DecidableEq, Repr

/-- `syncservice.RESTItem`. -/
structure RestItem where
  uid : String
  version : Int
  updatedAt : Option Rfc3339
  deletedAt : Option Rfc3339
  payload : Json
  deriving DecidableEq, Repr

/-- The errors of a mutation: a database error, `VersionMismatchError{Expected, Actual}`, or
`MutationError{Message}` carrying the push's ack error. -/
inductive MutationErr where
  | database (err : String)
  | versionMismatch (expected actual : Int)
  | mutation (message : String)
  deriving DecidableEq, Repr

/-! ## Statements of a mutation -/

/-- `SELECT updated_at_ms, version FROM task_list_category WHERE owner_id = $1 AND uid = $2`. -/
def probeStmt (o : String) (u : Uuid) : Stmt (Option (Int × Int)) := fun db =>
  .ok (((db.tables .taskListCategory).find o u).map fun r => (r.updatedAtMs, r.version), db)

/-- `jsonb_set(payload_json, '{sync,version}', to_jsonb(v))`, and the Go write
`syncBlock["version"] = ack.Version` on a `sync` object: the version is set in the `sync`
object, and a payload without one is left as it is. -/
def setSyncVersion (j : Json) (v : Int) : Json :=
  match j.get? "sync" with
  | some (.obj fields) => j.set "sync" ((Json.obj fields).set "version" (.num v))
  | _ => j

/-- Rewrite the payload of the row under `(o, u)`, if there is one. -/
def Table.setPayload (t : Table) (o : String) (u : Uuid) (g : Json → Json) : Table :=
  ⟨t.rows.map fun r => if r.key = (o, u) then { r with payloadJson := g r.payloadJson } else r, by
    rw [List.map_map]
    convert t.nodup using 2
    funext r
    show (if _ then _ else r).key = r.key
    split <;> rfl⟩

/-- `UPDATE task_list_category SET payload_json = jsonb_set(payload_json, '{sync,version}',
to_jsonb($1::int)) WHERE owner_id = $2 AND uid = $3`. -/
def patchVersionStmt (v : Int) (o : String) (u : Uuid) : Stmt Unit := fun db =>
  .ok ((), db.setTable .taskListCategory
    ((db.tables .taskListCategory).setPayload o u fun j => setSyncVersion j v))

/-! ## The mutation -/

/-- The category of a mutation: what `uuid.Parse` gives for the payload's `uid`, its error
ignored, when that is not nil, and otherwise a fresh one (`uuid.New()`), written into the
payload. A `uid` that breaks off after some digit pairs gives the bytes read so far. -/
def mutationUid (payload : Json) (fresh : Uuid) : Uuid × Json :=
  let parsed := match getString payload "uid" with
    | some s => (uuidParse s).1
    | none => Uuid.nil
  if parsed = Uuid.nil then (fresh, payload.set "uid" (.str fresh.toString)) else (parsed, payload)

/-- The write timestamp: `ForceTimestampMs` if set, the clock for a new row, and
`EnsureMonotonicTimestamp(existingMs)` for a stored one. -/
def mutationTimestamp (opts : MutationOpts) (now : Int) (probe : Option (Int × Int)) : Int :=
  match opts.forceTimestampMs, probe with
  | some ts, _ => ts
  | none, none => now
  | none, some (existingMs, _) => ensureMonotonicTimestamp now existingMs

/-- The first half of `ApplyTaskListCategoryMutation`: the uid, the probe, and the version
check of a stored row. It returns the uid, the payload carrying it and what the probe
found. -/
def mutationProbe (f : Faults) (t : Tx) (userID : String) (payload : Json) (opts : MutationOpts)
    (fresh : Uuid) : Except MutationErr (Uuid × Json × Option (Int × Int)) × Tx :=
  match t.exec f (probeStmt userID (mutationUid payload fresh).1) with
  | (.error e, t) => (.error (.database e), t)
  | (.ok none, t) => (.ok ((mutationUid payload fresh).1, (mutationUid payload fresh).2, none), t)
  | (.ok (some (existingMs, existingVersion)), t) =>
    if opts.enforceVersion ∧ existingVersion ≠ opts.expectedVersion then
      (.error (.versionMismatch opts.expectedVersion existingVersion), t)
    else (.ok ((mutationUid payload fresh).1, (mutationUid payload fresh).2,
      some (existingMs, existingVersion)), t)

/-- The second half: stamp the payload, push it, and patch the stored `sync.version` to the
version the push acknowledged. -/
def mutationWrite (f : Faults) (t : Tx) (userID : String) (uid : Uuid) (payload : Json)
    (probe : Option (Int × Int)) (opts : MutationOpts) (now : Int) : Except MutationErr RestItem × Tx :=
  let ts := mutationTimestamp opts now probe
  let mutated := buildServerMutation payload ts opts.setDeleted
  match pushTaskListCategoryItem f t userID mutated with
  | (ack, t) =>
    if ack.error ≠ "" then (.error (.mutation ack.error), t)
    else match t.exec f (patchVersionStmt ack.version userID uid) with
      | (.error e, t) => (.error (.database e), t)
      | (.ok (), t) => (.ok ⟨ack.uid, ack.version, ack.updatedAt,
          if opts.setDeleted then some (rfc3339 ts) else none, setSyncVersion mutated ack.version⟩, t)

/-- `TaskListCategoryService.ApplyTaskListCategoryMutation`: both halves in one transaction,
then the commit. A failure rolls back. -/
def applyTaskListCategoryMutation (f : Faults) (db : Db) (userID : String) (payload : Json)
    (opts : MutationOpts) (fresh : Uuid) (now : Int) : Except MutationErr RestItem × Db :=
  if f 0 then (.error (.database faultError), db)
  else match mutationProbe f (Tx.begin db) userID payload opts fresh with
    | (.error e, _) => (.error e, db)
    | (.ok (uid, payload, probe), t) =>
      match mutationWrite f t userID uid payload probe opts now with
      | (.error e, _) => (.error e, db)
      | (.ok item, t) =>
        match t.commit f with
        | .error e => (.error (.database e), db)
        | .ok db' => (.ok item, db')

/-! ## Reads -/

/-- The REST form of a stored row. -/
def Row.toRestItem (r : Row) : RestItem :=
  ⟨r.uid.toString, r.version, some (rfc3339 r.updatedAtMs), r.deletedAtMs.map rfc3339, r.payloadJson⟩

/-- `TaskListCategoryService.GetTaskListCategory`: the item, `none` for no row
(`pgx.ErrNoRows`), or the query's error. -/
def getTaskListCategory (f : Faults) (db : Db) (userID : String) (uid : Uuid) :
    Except String (Option RestItem) :=
  if f 0 then .error faultError
  else .ok (((db.tables .taskListCategory).find userID uid).map Row.toRestItem)

/-- `syncservice.RESTListResponse`. -/
structure RestListResponse where
  items : List RestItem
  nextCursor : Option String
  deriving DecidableEq, Repr

/-- `TaskListCategoryService.ListTaskListCategories`: the cursor scan, without tombstones
unless `includeDeleted`, with `LIMIT`. -/
def listTaskListCategories (f : Faults) (db : Db) (userID : String) (cursor : Cursor) (limit : Nat)
    (includeDeleted : Bool) : Except String RestListResponse :=
  if f 0 then .error faultError
  else
    let rows := (((db.tables .taskListCategory).above userID cursor).filter fun r =>
      includeDeleted || r.deletedAtMs.isNone).take limit
    .ok ⟨rows.map Row.toRestItem, rows.getLast?.map fun r =>
      encodeCursor ⟨r.updatedAtMs, (uuidParse r.uid.toString).1⟩⟩

/-! ## What the statements do -/

/-- A statement that only reads leaves the transaction on the store it saw. -/
theorem Tx.exec_db_of_read {α : Type} {f : Faults} {t : Tx} {q : Stmt α}
    (hq : ∀ db, ∃ a, q db = .ok (a, db)) : (t.exec f q).2.db = t.db := by
  rcases h : t.exec f q with ⟨_ | a, t'⟩
  · exact (Tx.exec_eq_error h).2
  · obtain ⟨-, -, db, hdb, rfl⟩ := Tx.exec_eq_ok.mp h
    obtain ⟨b, hb⟩ := hq t.db
    rw [hb] at hdb
    cases hdb
    rfl

/-- The probe half writes nothing. -/
theorem mutationProbe_db (f : Faults) (t : Tx) (userID : String) (payload : Json)
    (opts : MutationOpts) (fresh : Uuid) : (mutationProbe f t userID payload opts fresh).2.db = t.db := by
  have h := Tx.exec_db_of_read (f := f) (t := t)
    (q := probeStmt userID (mutationUid payload fresh).1) fun db => ⟨_, rfl⟩
  unfold mutationProbe
  rcases hq : t.exec f (probeStmt userID (mutationUid payload fresh).1) with ⟨_ | _ | ⟨ms, v⟩, t'⟩ <;>
    rw [hq] at h
  · exact h
  · exact h
  · simp only; split_ifs <;> exact h

/-- The probe half, when it lets the mutation through: the uid and payload `mutationUid`
chose, on the store the transaction saw, and the counters of the row stored there. -/
theorem mutationProbe_ok {f : Faults} {t t' : Tx} {userID : String} {payload payload' : Json}
    {opts : MutationOpts} {fresh uid : Uuid} {probe : Option (Int × Int)}
    (h : mutationProbe f t userID payload opts fresh = (.ok (uid, payload', probe), t')) :
    uid = (mutationUid payload fresh).1 ∧ payload' = (mutationUid payload fresh).2 ∧
      t'.db = t.db ∧
      probe = ((t.db.tables .taskListCategory).find userID uid).map fun r => (r.updatedAtMs, r.version) := by
  have hdb := mutationProbe_db f t userID payload opts fresh
  rw [h] at hdb
  unfold mutationProbe at h
  -- the probe statement went through and read the stored row
  rcases hq : t.exec f (probeStmt userID (mutationUid payload fresh).1) with ⟨_ | x, t₁⟩ <;>
    rw [hq] at h
  · cases h
  obtain ⟨-, -, db₁, hdb₁, -⟩ := Tx.exec_eq_ok.mp hq
  simp only [probeStmt, Except.ok.injEq, Prod.mk.injEq] at hdb₁
  obtain ⟨rfl, -⟩ := hdb₁
  -- no row, or a row whose version the check let through
  rcases hx : (t.db.tables .taskListCategory).find userID (mutationUid payload fresh).1 with _ | r <;>
    simp only [hx, Option.map_none', Option.map_some'] at h
  on_goal 2 => split_ifs at h; · simp at h
  all_goals
    simp only [Prod.mk.injEq, Except.ok.injEq] at h
    obtain ⟨⟨rfl, rfl, rfl⟩, rfl⟩ := h
    exact ⟨rfl, rfl, hdb, by rw [hx]; rfl⟩

/-- The payload a mutation pushes names the category it chose: a parsed `uid` is the
payload's own, and a fresh one is written into the payload. -/
theorem getUuid_mutationUid (payload : Json) (fresh : Uuid) {u : Uuid}
    (h : getUuid (mutationUid payload fresh).2 "uid" = .ok u) : (mutationUid payload fresh).1 = u := by
  dsimp only [mutationUid] at h ⊢
  split_ifs at h ⊢ with hnil
  · cases payload with
    | obj fields => simpa [getUuid, getString, parseUuid_toString] using h
    | _ => simp [getUuid, getString, Json.set, Json.get?] at h
  · unfold getUuid at h
    rcases hs : getString payload "uid" with _ | s <;> simp only [hs] at h ⊢
    · cases h
    · unfold parseUuid at h
      split_ifs at h
      exact Except.ok.inj h

/-- A mutation whose forced timestamp is older than the stored row: the upsert keeps the
stored row, and the mutation succeeds, but it answers the caller's payload and not the row
`GetTaskListCategory` then reads. The counters (uid, version, timestamp) agree; the content
does not. -/
theorem applyTaskListCategoryMutation_stale_answer :
    match (pushTaskListCategories Faults.none Db.empty "u"
        [.obj [("uid", .str "00000000-0000-0000-0000-00000000000a"), ("title", .str "old"),
          ("sync", .obj [("updatedAtMs", .num 5000), ("version", .num 1)])]]).2 with
    | db =>
      match applyTaskListCategoryMutation Faults.none db "u"
          (.obj [("uid", .str "00000000-0000-0000-0000-00000000000a"), ("title", .str "new")])
          ⟨false, 0, some 1000, false⟩ Uuid.nil 9000 with
      | (r, db') =>
        r.map (fun i => (i.uid, i.version, i.updatedAt, i.payload.get? "title")) =
          .ok ("00000000-0000-0000-0000-00000000000a", 1, some (rfc3339 5000), some (.str "new")) ∧
        (getTaskListCategory Faults.none db' "u" ⟨10, by decide⟩).map
            (Option.map fun i => (i.uid, i.version, i.updatedAt, i.payload.get? "title")) =
          .ok (some ("00000000-0000-0000-0000-00000000000a", 1, some (rfc3339 5000),
            some (.str "old"))) := by
  decide

end Toolbridge
