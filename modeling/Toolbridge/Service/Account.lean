import Toolbridge.Service.Batch

/-!
# Sessions, epochs and the account wipe

The epoch controller (§4.F). Every owner has an epoch, kept in `owner_state` and created
lazily at 1 by the first `BeginSession`; `WipeAccount` bumps it and deletes the owner's
rows in one transaction, then drops the owner's sessions from the in-memory session store
(package `session`); `GetSyncState` reports it, 1 while no row exists. A committed wipe
reports, for each table it empties, how many of the owner's rows that table held
(`wipeAccount_reports_counts`).

`BeginSession` (the gRPC handler and the HTTP one share the session store and the SQL; they
differ only in how they answer) runs two autocommitted statements and then creates the
session: it is cut into those steps (`initEpoch`, `loadEpoch`, `createSession`) so that the
interleavings of `Toolbridge.Service.SessionRace` can run them apart.

`EndSession` and `GetSession` read one session and act only for its owner. The source's
store is a map keyed by session id; here it is a list, and `SessionIds` says that no two of
its sessions share an id, which every handler keeps.
-/

namespace Toolbridge

/-! ## The session store -/

/-- `session.Session`. Times are in milliseconds. -/
structure Session where
  id : String
  userId : String
  createdAt : Int
  expiresAt : Int
  epoch : Int
  deriving DecidableEq, Repr

/-- The store's `ttl`, 30 minutes. -/
def sessionTtl : Int := 30 * 60 * 1000

/-- `Store.CreateSession(userID, epoch)` at `now`, with `id` the `uuid.New()` it draws: the
session is stored under its id, then the expired sessions are dropped
(`cleanupExpiredLocked`). -/
def createSession (store : List Session) (userID : String) (epoch : Int) (id : String) (now : Int) :
    Session × List Session :=
  let sess : Session := ⟨id, userID, now, now + sessionTtl, epoch⟩
  (sess, (store.filter (fun s => s.id ≠ id) ++ [sess]).filter fun s => ¬ now > s.expiresAt)

/-- `Store.DeleteUserSessions(userID)`: the store without the user's sessions, and how many
there were. -/
def deleteUserSessions (store : List Session) (userID : String) : List Session × Nat :=
  (store.filter (·.userId ≠ userID), (store.filter (·.userId = userID)).length)

/-- `Store.GetSession(id)` at `now`: an unexpired session under that id. -/
def getSession (store : List Session) (id : String) (now : Int) : Option Session :=
  (store.find? (·.id = id)).filter fun s => ¬ now > s.expiresAt

/-- The server's state: the database and the process's session store. -/
structure Server where
  db : Db
  sessions : List Session

/-! ## Statements on `owner_state` -/

/-- Replace the owner state of `o`. -/
def Db.setOwnerState (db : Db) (o : String) (st : OwnerState) : Db :=
  { db with ownerState := Function.update db.ownerState o (some st) }

@[simp] theorem Db.setOwnerState_tables (db : Db) (o : String) (st : OwnerState) :
    (db.setOwnerState o st).tables = db.tables := rfl

@[simp] theorem Db.setOwnerState_ownerState (db : Db) (o o' : String) (st : OwnerState) :
    (db.setOwnerState o st).ownerState o' = if o' = o then some st else db.ownerState o' := by
  by_cases h : o' = o
  · subst h; simp [Db.setOwnerState]
  · simp [Db.setOwnerState, h]

/-- A statement outside a transaction (`DB.QueryRow`): the `n`-th round trip of the request,
committed on its own. -/
def autocommit {α : Type} (f : Faults) (n : Nat) (q : Stmt α) (db : Db) : Except String α × Db :=
  if f n then (.error faultError, db)
  else match q db with
    | .ok (a, db') => (.ok a, db')
    | .error e => (.error e, db)

/-- `INSERT INTO owner_state(owner_id, epoch, created_at, updated_at) VALUES ($1, 1, NOW(),
NOW()) ON CONFLICT (owner_id) DO NOTHING RETURNING epoch`: the epoch of the row it inserted,
or no row. -/
def initEpochStmt (o : String) : Stmt (Option Int) := fun db =>
  match db.ownerState o with
  | some _ => .ok (none, db)
  | none => .ok (some 1, db.setOwnerState o ⟨1, none, none⟩)

/-- `SELECT epoch FROM owner_state WHERE owner_id = $1`. -/
def selectEpochStmt (o : String) : Stmt (Option Int) := fun db =>
  .ok ((db.ownerState o).map (·.epoch), db)

/-- The bump of `WipeAccount`, at `now`: `INSERT INTO owner_state(owner_id, epoch,
last_wipe_at, last_wipe_by, ...) VALUES ($1, 2, NOW(), $1, ...) ON CONFLICT (owner_id) DO
UPDATE SET epoch = owner_state.epoch + 1, last_wipe_at = NOW(), last_wipe_by =
EXCLUDED.last_wipe_by ... RETURNING epoch`. The `INT` column overflows past its range. -/
def bumpEpochStmt (o : String) (now : Int) : Stmt Int := fun db =>
  match db.ownerState o with
  | none => .ok (2, db.setOwnerState o ⟨2, some now, some o⟩)
  | some st =>
    if st.epoch + 1 ≤ int4Max then .ok (st.epoch + 1, db.setOwnerState o ⟨st.epoch + 1, some now, some o⟩)
    else .error outOfRangeError

/-- The SQL name of the table of a kind. -/
def Kind.tableName : Kind → String
  | .note => "note"
  | .task => "task"
  | .comment => "comment"
  | .chat => "chat"
  | .chatMessage => "chat_message"
  | .taskList => "task_list"
  | .taskListCategory => "task_list_category"

/-- Delete the rows of owner `o` from the table of kind `k`. -/
def Db.deleteOwned (db : Db) (k : Kind) (o : String) : Db :=
  db.setTable k ((db.tables k).filter fun r => r.ownerId ≠ o)

/-- `WITH del AS (DELETE FROM <table> WHERE owner_id = $1 RETURNING 1) SELECT COUNT(*) FROM
del`. -/
def deleteOwnedStmt (k : Kind) (o : String) : Stmt Nat := fun db =>
  .ok (((db.tables k).ownedBy o).length, db.deleteOwned k o)

/-! ## The handlers -/

/-- The first step of `BeginSession`: the lazy insert, as the request's round trip `0`. -/
def initEpoch (f : Faults) (db : Db) (userID : String) : Except String (Option Int) × Db :=
  autocommit f 0 (initEpochStmt userID) db

/-- The second step, when the insert found a row: the epoch, as round trip `1`, or the
handler's error. -/
def loadEpoch (f : Faults) (db : Db) (userID : String) : Except String Int :=
  match (autocommit f 1 (selectEpochStmt userID) db).1 with
  | .ok (some epoch) => .ok epoch
  | _ => .error "Failed to load epoch"

/-- The store half of `BeginSession` (both the gRPC and the HTTP handler): the epoch, lazily
initialised, and a session stamped with it; or the handler's error text. -/
def openSession (f : Faults) (s : Server) (userID id : String) (now : Int) :
    Except String Session × Server :=
  match initEpoch f s.db userID with
  | (.error _, _) => (.error "Failed to initialize epoch", s)
  | (.ok (some epoch), db) =>
    (.ok (createSession s.sessions userID epoch id now).1, ⟨db, (createSession s.sessions userID epoch id now).2⟩)
  | (.ok none, db) =>
    match loadEpoch f db userID with
    | .error e => (.error e, { s with db := db })
    | .ok epoch =>
      (.ok (createSession s.sessions userID epoch id now).1, ⟨db, (createSession s.sessions userID epoch id now).2⟩)

/-- `Server.BeginSession` (gRPC). -/
def beginSession (f : Faults) (s : Server) (userID id : String) (now : Int) :
    Except (Code × String) Session × Server :=
  if userID = "" then (.error (.unauthenticated, "unauthorized"), s)
  else match openSession f s userID id now with
    | (.error e, s) => (.error (.internal, e), s)
    | (.ok sess, s) => (.ok sess, s)

/-- `Server.BeginSession` (HTTP, `POST /v1/sync/sessions`): 201 and the session, whose epoch
also goes out as `X-Sync-Epoch`, or the status and error text. -/
def beginSessionHttp (f : Faults) (s : Server) (userID id : String) (now : Int) :
    (Nat × Except String Session) × Server :=
  if userID = "" then ((401, .error "unauthorized"), s)
  else match openSession f s userID id now with
    | (.error e, s) => ((500, .error e), s)
    | (.ok sess, s) => ((201, .ok sess), s)

/-- `BeginSession` leaves the server as its store half does, once it has a caller. -/
theorem beginSession_snd (f : Faults) (s : Server) (userID id : String) (now : Int) :
    (beginSession f s userID id now).2 = if userID = "" then s else (openSession f s userID id now).2 := by
  unfold beginSession
  split_ifs
  · rfl
  rcases openSession f s userID id now with ⟨_ | _, s'⟩ <;> rfl

/-- The same for the HTTP handler. -/
theorem beginSessionHttp_snd (f : Faults) (s : Server) (userID id : String) (now : Int) :
    (beginSessionHttp f s userID id now).2 = if userID = "" then s else (openSession f s userID id now).2 := by
  unfold beginSessionHttp
  split_ifs
  · rfl
  rcases openSession f s userID id now with ⟨_ | _, s'⟩ <;> rfl

/-! ## Go maps -/

/-- The order a map's keys are kept in: lexicographic on the characters' code points. -/
def keyLt : List Char → List Char → Bool
  | [], [] => false
  | [], _ :: _ => true
  | _ :: _, [] => false
  | a :: as, b :: bs => if a = b then keyLt as bs else a.toNat < b.toNat

theorem keyLt_trans : ∀ {a b c : List Char}, keyLt a b = true → keyLt b c = true → keyLt a c = true
  | [], [], _, h, _ => by cases h
  | [], _ :: _, [], _, h => by cases h
  | [], _ :: _, _ :: _, _, _ => rfl
  | _ :: _, [], _, h, _ => by cases h
  | _ :: _, _ :: _, [], _, h => by cases h
  | x :: as, y :: bs, z :: cs, h₁, h₂ => by
    simp only [keyLt] at h₁ h₂ ⊢
    by_cases hxy : x = y <;> by_cases hyz : y = z
    · subst hxy hyz; simp only [if_true] at h₁ h₂ ⊢; exact keyLt_trans h₁ h₂
    · subst hxy; simpa [hyz] using h₂
    · subst hyz; simpa [hxy] using h₁
    · simp only [hxy, hyz, if_false, decide_eq_true_eq] at h₁ h₂
      have hxz : x ≠ z := fun h => by subst h; omega
      simp only [hxz, if_false, decide_eq_true_eq]
      omega

theorem keyLt_total : ∀ {a b : List Char}, a ≠ b → keyLt a b = true ∨ keyLt b a = true
  | [], [], h => absurd rfl h
  | [], _ :: _, _ => .inl rfl
  | _ :: _, [], _ => .inr rfl
  | x :: as, y :: bs, h => by
    simp only [keyLt]
    by_cases hxy : x = y
    · subst hxy; simpa using keyLt_total fun e => h (congrArg _ e)
    · have hn : x.toNat ≠ y.toNat := fun e => hxy (Char.ext (UInt32.eq_of_val_eq (Fin.ext e)))
      simp only [hxy, Ne.symm hxy, if_false, decide_eq_true_eq]
      omega

/-- `m[k] = v` on entries sorted by key: the entry under `k` is replaced, or a new one goes in
its place. -/
def insertEntry (k : String) (v : Int) : List (String × Int) → List (String × Int)
  | [] => [(k, v)]
  | (k', v') :: rest =>
    if k = k' then (k, v) :: rest
    else if keyLt k.toList k'.toList then (k, v) :: (k', v') :: rest
    else (k', v') :: insertEntry k v rest

theorem fst_mem_insertEntry {k : String} {v : Int} : ∀ {l : List (String × Int)} {x : String},
    x ∈ (insertEntry k v l).map Prod.fst → x = k ∨ x ∈ l.map Prod.fst
  | [], x, h => by simpa [insertEntry] using h
  | (k', v') :: rest, x, h => by
    unfold insertEntry at h
    split_ifs at h with he
    · subst he; simpa using h
    · simpa using h
    · simp only [List.map_cons, List.mem_cons] at h ⊢
      rcases h with h | h
      · exact .inr (.inl h)
      · exact (fst_mem_insertEntry h).imp_right .inr

theorem pairwise_insertEntry (k : String) (v : Int) : ∀ {l : List (String × Int)},
    (l.map Prod.fst).Pairwise (fun a b => keyLt a.toList b.toList) →
      ((insertEntry k v l).map Prod.fst).Pairwise fun a b => keyLt a.toList b.toList
  | [], _ => by simp [insertEntry]
  | (k', v') :: rest, h => by
    rw [List.map_cons, List.pairwise_cons] at h
    unfold insertEntry
    split_ifs with he hlt
    -- the entry under `k` is replaced
    · subst he; simpa using h
    -- `k` goes first
    · simp only [List.map_cons, List.pairwise_cons, List.mem_cons]
      exact ⟨fun x hx => hx.elim (· ▸ hlt) fun hx => keyLt_trans hlt (h.1 x hx), h⟩
    -- `k` goes after `k'`
    · have hlt' : keyLt k'.toList k.toList = true :=
        (keyLt_total fun e => he (String.ext e)).resolve_left (by simpa using hlt)
      simp only [List.map_cons, List.pairwise_cons]
      exact ⟨fun x hx => (fst_mem_insertEntry hx).elim (· ▸ hlt') (h.1 x),
        pairwise_insertEntry k v h.2⟩

/-- A Go `map[string]int32`, as its entries sorted by key: the list keeps no order of its
own, so two maps with the same entries are one value. -/
structure Int32Map where
  entries : List (String × Int)
  sorted : (entries.map Prod.fst).Pairwise fun a b => keyLt a.toList b.toList
  deriving DecidableEq, Repr

namespace Int32Map

/-- `make(map[string]int32)`. -/
def empty : Int32Map := ⟨[], .nil⟩

/-- `m[k] = v`. -/
def insert (m : Int32Map) (k : String) (v : Int) : Int32Map :=
  ⟨insertEntry k v m.entries, pairwise_insertEntry k v m.sorted⟩

/-- The map that the assignments of a list, in turn, build from an empty one. -/
def ofList (kvs : List (String × Int)) : Int32Map := kvs.foldl (fun m kv => m.insert kv.1 kv.2) empty

end Int32Map

/-! ## The account wipe -/

/-- The tables `WipeAccount` empties, in its order. -/
def wipeTables : List Kind := [.chatMessage, .comment, .chat, .task, .note]

/-- The delete loop of `WipeAccount`: each table's count goes into `deleted` as
`deleted[table] = int32(count)`; a failed delete names its table. -/
def wipeLoop (f : Faults) (userID : String) :
    Int32Map → Tx → List Kind → Except String Int32Map × Tx
  | deleted, t, [] => (.ok deleted, t)
  | deleted, t, k :: ks =>
    match t.exec f (deleteOwnedStmt k userID) with
    | (.error _, t) => (.error k.tableName, t)
    | (.ok count, t) => wipeLoop f userID (deleted.insert k.tableName (toInt32 count)) t ks

/-- `syncv1.WipeResult`. -/
structure WipeResult where
  epoch : Int
  deleted : Int32Map
  deriving DecidableEq, Repr

/-- The transaction of `WipeAccount`, at `now`: bump the epoch, empty the tables, commit. It
answers the new epoch and the counts, or the handler's error text. -/
def wipeTx (f : Faults) (db : Db) (userID : String) (now : Int) : Except String (Int × Int32Map) × Db :=
  if f 0 then (.error "transaction begin failed", db)
  else match (Tx.begin db).exec f (bumpEpochStmt userID now) with
    | (.error _, _) => (.error "epoch update failed", db)
    | (.ok newEpoch, t) =>
      match wipeLoop f userID .empty t wipeTables with
      | (.error table, _) => (.error ("delete failed: " ++ table), db)
      | (.ok deleted, t) =>
        match t.commit f with
        | .error _ => (.error "commit failed", db)
        | .ok db' => (.ok (newEpoch, deleted), db')

/-- `Server.WipeAccount`: the confirmation, the transaction, and after its commit the
invalidation of the owner's sessions. -/
def wipeAccount (f : Faults) (s : Server) (userID confirm : String) (now : Int) :
    Except (Code × String) WipeResult × Server :=
  if userID = "" then (.error (.unauthenticated, "unauthorized"), s)
  else if confirm ≠ "WIPE" then
    (.error (.invalidArgument, "confirmation required: must send confirm=\"WIPE\""), s)
  else match wipeTx f s.db userID now with
    | (.error e, _) => (.error (.internal, e), s)
    | (.ok (newEpoch, deleted), db) =>
      (.ok ⟨toInt32 newEpoch, deleted⟩, ⟨db, (deleteUserSessions s.sessions userID).1⟩)

/-- `syncv1.UserSyncState`. -/
structure UserSyncState where
  epoch : Int
  lastWipeAt : Option Int
  lastWipeBy : Option String
  deriving DecidableEq, Repr

/-- The epoch of an owner as `GetSyncState` reads it: 1 while there is no `owner_state` row. -/
def currentEpoch (db : Db) (o : String) : Int := ((db.ownerState o).map (·.epoch)).getD 1

/-- `Server.GetSyncState`: the owner state, or epoch 1 when there is none. -/
def getSyncState (f : Faults) (db : Db) (userID : String) : Except (Code × String) UserSyncState :=
  if userID = "" then .error (.unauthenticated, "unauthorized")
  else if f 0 then .error (.internal, "failed to load sync state")
  else match db.ownerState userID with
    | none => .ok ⟨1, none, none⟩
    | some st => .ok ⟨toInt32 st.epoch, st.lastWipeAt, st.lastWipeBy⟩

/-- `Store.DeleteSession(id)`: the store without the session under `id`, and whether it held
one. -/
def deleteSession (store : List Session) (id : String) : List Session × Bool :=
  (store.filter (·.id ≠ id), store.any (·.id = id))

theorem mem_createSession {store : List Session} {userID id : String} {epoch now : Int} {x : Session}
    (h : x ∈ (createSession store userID epoch id now).2) :
    x ∈ store ∨ x = (createSession store userID epoch id now).1 := by
  simp only [createSession, List.mem_filter, List.mem_append, List.mem_singleton] at h
  rcases h.1 with h | h
  · exact .inl h.1
  · exact .inr h

@[simp] theorem mem_deleteUserSessions {store : List Session} {userID : String} {x : Session} :
    x ∈ (deleteUserSessions store userID).1 ↔ x ∈ store ∧ x.userId ≠ userID := by
  simp [deleteUserSessions]

/-- The source's store is a map keyed by session id: no two sessions share an id. -/
def SessionIds (store : List Session) : Prop := (store.map Session.id).Nodup

theorem SessionIds.filter {store : List Session} (h : SessionIds store) (p : Session → Bool) :
    SessionIds (store.filter p) :=
  h.sublist ((List.filter_sublist _).map _)

/-- Storing a session under its id, in place of any session there, keeps the ids distinct. -/
theorem sessionIds_insert {store : List Session} (h : SessionIds store) (sess : Session) :
    SessionIds (store.filter (fun s => s.id ≠ sess.id) ++ [sess]) := by
  unfold SessionIds
  rw [List.map_append, List.nodup_append]
  refine ⟨h.filter _, List.nodup_singleton _, fun a ha hb => ?_⟩
  obtain ⟨x, hx, rfl⟩ := List.mem_map.mp ha
  simp only [List.map_cons, List.map_nil, List.mem_singleton] at hb
  exact of_decide_eq_true (List.mem_filter.mp hx).2 hb

theorem sessionIds_createSession {store : List Session} (h : SessionIds store) (userID : String)
    (epoch : Int) (id : String) (now : Int) : SessionIds (createSession store userID epoch id now).2 :=
  (sessionIds_insert h ⟨id, userID, now, now + sessionTtl, epoch⟩).filter _

theorem sessionIds_deleteUserSessions {store : List Session} (h : SessionIds store) (userID : String) :
    SessionIds (deleteUserSessions store userID).1 :=
  h.filter _

theorem openSession_sessionIds (f : Faults) {s : Server} (userID id : String) (now : Int)
    (h : SessionIds s.sessions) : SessionIds (openSession f s userID id now).2.sessions := by
  unfold openSession
  rcases initEpoch f s.db userID with ⟨_ | (_ | epoch), db⟩
  · exact h
  · dsimp only
    cases loadEpoch f db userID
    · exact h
    · exact sessionIds_createSession h _ _ _ _
  · exact sessionIds_createSession h _ _ _ _

theorem beginSession_sessionIds (f : Faults) {s : Server} (userID id : String) (now : Int)
    (h : SessionIds s.sessions) : SessionIds (beginSession f s userID id now).2.sessions := by
  have ho := openSession_sessionIds f userID id now h
  unfold beginSession
  split_ifs
  · exact h
  rcases hq : openSession f s userID id now with ⟨_ | _, s'⟩ <;> rw [hq] at ho <;> exact ho

theorem beginSessionHttp_sessionIds (f : Faults) {s : Server} (userID id : String) (now : Int)
    (h : SessionIds s.sessions) : SessionIds (beginSessionHttp f s userID id now).2.sessions := by
  have ho := openSession_sessionIds f userID id now h
  unfold beginSessionHttp
  split_ifs
  · exact h
  rcases hq : openSession f s userID id now with ⟨_ | _, s'⟩ <;> rw [hq] at ho <;> exact ho

theorem wipeAccount_sessionIds (f : Faults) {s : Server} (userID confirm : String) (now : Int)
    (h : SessionIds s.sessions) : SessionIds (wipeAccount f s userID confirm now).2.sessions := by
  unfold wipeAccount
  split_ifs
  · exact h
  · exact h
  rcases wipeTx f s.db userID now with ⟨_ | _, db⟩
  · exact h
  · exact sessionIds_deleteUserSessions h userID

/-- The lazy insert never changes an epoch: a missing row reads as epoch 1. -/
theorem currentEpoch_initEpoch (f : Faults) (db : Db) (userID o : String) :
    currentEpoch (initEpoch f db userID).2 o = currentEpoch db o := by
  unfold initEpoch autocommit
  split
  · rfl
  rcases hs : db.ownerState userID with _ | st
  · by_cases ho : o = userID
    · subst ho; simp [initEpochStmt, currentEpoch, hs]
    · simp [initEpochStmt, currentEpoch, hs, ho]
  · simp [initEpochStmt, hs]

/-- The epoch the lazy insert returns is the owner's epoch. -/
theorem initEpoch_some {f : Faults} {db : Db} {userID : String} {e : Int}
    (h : (initEpoch f db userID).1 = .ok (some e)) : e = currentEpoch (initEpoch f db userID).2 userID := by
  unfold initEpoch autocommit at h ⊢
  by_cases hf : f 0 = true
  · simp [hf] at h
  rcases hs : db.ownerState userID with _ | st <;> simp_all [initEpochStmt, currentEpoch]

/-- The epoch the select returns is the owner's epoch. -/
theorem loadEpoch_ok {f : Faults} {db : Db} {userID : String} {e : Int}
    (h : loadEpoch f db userID = .ok e) : e = currentEpoch db userID := by
  unfold loadEpoch autocommit selectEpochStmt at h
  by_cases hf : f 1 = true
  · simp [hf] at h
  rcases hs : db.ownerState userID with _ | st <;> simp [hf, hs] at h
  simp [currentEpoch, hs, h]

/-! ## What a wipe does -/

/-- The delete loop, when it gets through, deleted the owner's rows from each table. -/
theorem wipeLoop_ok {f : Faults} {userID : String} :
    ∀ {m d : Int32Map} {t t' : Tx} {ks : List Kind}, wipeLoop f userID m t ks = (.ok d, t') →
      t'.db = ks.foldl (fun db k => db.deleteOwned k userID) t.db
  | _, _, t, t', [], h => by cases h; rfl
  | m, d, t, t', k :: ks, h => by
    unfold wipeLoop at h
    rcases hq : t.exec f (deleteOwnedStmt k userID) with ⟨_ | n, t₁⟩
    · simp [hq] at h
    obtain ⟨-, -, db₁, hdb₁, rfl⟩ := Tx.exec_eq_ok.mp hq
    simp only [deleteOwnedStmt, Except.ok.injEq, Prod.mk.injEq] at hdb₁
    rw [hq] at h
    rw [wipeLoop_ok h, List.foldl_cons, ← hdb₁.2]

/-- A wipe transaction either failed and changed nothing, or committed the bump of the owner's
epoch and the deletion of the owner's rows from the tables of its list. -/
theorem wipeTx_eq (f : Faults) (db : Db) (userID : String) (now : Int) :
    (∃ e, wipeTx f db userID now = (.error e, db)) ∨
      ∃ e d db₁, bumpEpochStmt userID now db = .ok (e, db₁) ∧
        wipeTx f db userID now = (.ok (e, d), wipeTables.foldl (fun db k => db.deleteOwned k userID) db₁) := by
  unfold wipeTx
  split
  · exact .inl ⟨_, rfl⟩
  rcases hb : (Tx.begin db).exec f (bumpEpochStmt userID now) with ⟨_ | e, t⟩
  · exact .inl ⟨_, rfl⟩
  obtain ⟨-, -, db₁, hdb₁, rfl⟩ := Tx.exec_eq_ok.mp hb
  simp only
  rcases hl : wipeLoop f userID .empty ⟨db₁, false, (Tx.begin db).stmt + 1⟩ wipeTables with ⟨_ | d, t'⟩
  · exact .inl ⟨_, rfl⟩
  simp only
  rcases hc : t'.commit f with _ | db'
  · exact .inl ⟨_, rfl⟩
  obtain ⟨-, -, rfl⟩ := Tx.commit_eq_ok.mp hc
  exact .inr ⟨e, d, db₁, hdb₁, by rw [wipeLoop_ok hl]⟩

theorem bumpEpochStmt_tables {userID : String} {now e : Int} {db db₁ : Db}
    (h : bumpEpochStmt userID now db = .ok (e, db₁)) : db₁.tables = db.tables := by
  unfold bumpEpochStmt at h
  split at h
  · cases h; rfl
  · split at h
    · cases h; rfl
    · cases h

@[simp] theorem Table.mem_ownedBy {t : Table} {o : String} {r : Row} :
    r ∈ t.ownedBy o ↔ r ∈ t.rows ∧ r.ownerId = o := by
  simp [Table.ownedBy]

theorem Table.ownedBy_filter (t : Table) (p : Row → Bool) (o : String) :
    (t.filter p).ownedBy o = (t.ownedBy o).filter p := by
  simp only [Table.ownedBy, Table.filter, List.filter_filter, Bool.and_comm]

theorem ownedBy_foldl_deleteOwned (userID : String) (k : Kind) (o : String) :
    ∀ (ks : List Kind) (db : Db), (((ks.foldl (fun db k => db.deleteOwned k userID) db).tables k).ownedBy o) =
      if o = userID ∧ k ∈ ks then [] else (db.tables k).ownedBy o
  | [], db => by simp
  | k' :: ks, db => by
    rw [List.foldl_cons, ownedBy_foldl_deleteOwned userID k o ks]
    by_cases hk : k = k'
    · subst hk
      by_cases ho : o = userID
      · subst ho; simp [Db.deleteOwned, Table.ownedBy_filter]
      · simp only [Db.deleteOwned, Db.setTable_tables, if_true, Table.ownedBy_filter, ho, false_and,
          if_false]
        exact List.filter_eq_self.mpr fun r hr => by
          simp [(List.mem_filter.mp hr).2 |> of_decide_eq_true, ho]
    · simp [Db.deleteOwned, hk]

/-- A committed wipe of `userID` leaves `WipeAccount`'s tables without rows of `userID`, and
every other owner's rows, and the other tables, as they were. -/
theorem wipeTx_ownedBy {f : Faults} {db : Db} {userID : String} {now e : Int} {d : Int32Map}
    (h : (wipeTx f db userID now).1 = .ok (e, d)) (k : Kind) (o : String) :
    (((wipeTx f db userID now).2.tables k).ownedBy o) =
      if o = userID ∧ k ∈ wipeTables then [] else (db.tables k).ownedBy o := by
  rcases wipeTx_eq f db userID now with ⟨e', heq⟩ | ⟨e', d', db₁, hb, heq⟩ <;> rw [heq] at h ⊢
  · cases h
  · rw [ownedBy_foldl_deleteOwned, bumpEpochStmt_tables hb]

theorem bumpEpochStmt_ownerState {userID o : String} {now e : Int} {db db₁ : Db}
    (h : bumpEpochStmt userID now db = .ok (e, db₁)) (ho : o ≠ userID) :
    db₁.ownerState o = db.ownerState o := by
  unfold bumpEpochStmt at h
  split at h
  · cases h; simp [ho]
  · split at h
    · cases h; simp [ho]
    · cases h

theorem ownerState_foldl_deleteOwned (userID : String) :
    ∀ (ks : List Kind) (db : Db), (ks.foldl (fun db k => db.deleteOwned k userID) db).ownerState = db.ownerState
  | [], _ => rfl
  | _ :: ks, _ => (ownerState_foldl_deleteOwned userID ks _).trans rfl

/-- A wipe leaves every other owner's state as it was. -/
theorem wipeTx_ownerState_other (f : Faults) (db : Db) {userID o : String} (now : Int) (ho : o ≠ userID) :
    (wipeTx f db userID now).2.ownerState o = db.ownerState o := by
  rcases wipeTx_eq f db userID now with ⟨e, heq⟩ | ⟨e, d, db₁, hb, heq⟩ <;> rw [heq]
  rw [ownerState_foldl_deleteOwned, bumpEpochStmt_ownerState hb ho]

/-- The counts of the delete loop, when it gets through: for each table of a list without
repeats, `int32` of the number of the owner's rows the table held when the loop began, set in
turn into the map. Deleting from one table leaves the tables after it as they were. -/
theorem wipeLoop_counts {f : Faults} {userID : String} :
    ∀ {m d : Int32Map} {t t' : Tx} {ks : List Kind}, ks.Nodup →
      wipeLoop f userID m t ks = (.ok d, t') →
        d = ks.foldl (fun m k => m.insert k.tableName (toInt32 ((t.db.tables k).ownedBy userID).length)) m
  | _, _, t, t', [], _, h => by cases h; rfl
  | m, d, t, t', k :: ks, hnd, h => by
    unfold wipeLoop at h
    rcases hq : t.exec f (deleteOwnedStmt k userID) with ⟨_ | n, t₁⟩
    · simp [hq] at h
    obtain ⟨-, -, db₁, hdb₁, rfl⟩ := Tx.exec_eq_ok.mp hq
    simp only [deleteOwnedStmt, Except.ok.injEq, Prod.mk.injEq] at hdb₁
    obtain ⟨rfl, rfl⟩ := hdb₁
    rw [hq] at h
    dsimp only at h
    rewrite [wipeLoop_counts (List.nodup_cons.mp hnd).2 h, List.foldl_cons]
    -- the tables after `k` still hold what they held before its delete
    refine List.foldl_ext _ _ _ fun m' k' hk' => ?_
    have hne : k' ≠ k := fun he => (List.nodup_cons.mp hnd).1 (he ▸ hk')
    simp [Db.deleteOwned, hne]

/-- A committed wipe transaction reports, for each table of its list, `int32` of the number of
the owner's rows the table held: the bump of the epoch touches no table. -/
theorem wipeTx_deleted {f : Faults} {db : Db} {userID : String} {now e : Int}
    {d : Int32Map} (h : (wipeTx f db userID now).1 = .ok (e, d)) :
    d = .ofList (wipeTables.map fun k => (k.tableName, toInt32 ((db.tables k).ownedBy userID).length)) := by
  unfold wipeTx at h
  split at h
  · cases h
  rcases hb : (Tx.begin db).exec f (bumpEpochStmt userID now) with ⟨_ | e', t⟩ <;>
    simp only [hb] at h
  · cases h
  obtain ⟨-, -, db₁, hdb₁, rfl⟩ := Tx.exec_eq_ok.mp hb
  rcases hl : wipeLoop f userID .empty ⟨db₁, false, (Tx.begin db).stmt + 1⟩ wipeTables with
    ⟨_ | d', t'⟩ <;> simp only [hl] at h
  · cases h
  rcases hc : t'.commit f with _ | db' <;>
    simp only [hc, Except.ok.injEq, Prod.mk.injEq, reduceCtorEq] at h
  obtain ⟨-, rfl⟩ := h
  rw [wipeLoop_counts (by decide) hl, Int32Map.ofList, List.foldl_map]
  simp only [bumpEpochStmt_tables hdb₁, Tx.begin]

/-- A wipe that succeeds reports, under the name of each table it empties, `int32` of the
number of the owner's rows the table held when it began, and under no other name; and none of
those rows is left. -/
theorem wipeAccount_reports_counts (f : Faults) (s : Server) (userID confirm : String) (now : Int)
    {r : WipeResult} (h : (wipeAccount f s userID confirm now).1 = .ok r) :
    r.deleted = .ofList (wipeTables.map fun k => (k.tableName, toInt32 ((s.db.tables k).ownedBy userID).length)) ∧
      ∀ k ∈ wipeTables, ((wipeAccount f s userID confirm now).2.db.tables k).ownedBy userID = [] := by
  unfold wipeAccount at h ⊢
  split_ifs at h ⊢
  rcases hw : wipeTx f s.db userID now with ⟨_ | ⟨e, d⟩, db'⟩ <;>
    simp only [hw, reduceCtorEq, Except.ok.injEq] at h ⊢
  subst h
  have hd : (wipeTx f s.db userID now).1 = .ok (e, d) := by rw [hw]
  refine ⟨wipeTx_deleted hd, fun k hk => ?_⟩
  have hk' := wipeTx_ownedBy hd k userID
  rw [hw] at hk'
  simpa [hk] using hk'

/-- A wipe of an owner with two notes, beside another owner's note: the map reports the two
notes and no row of any other table. -/
theorem wipeAccount_reports_two_notes :
    let s : Server := ⟨(pushNotes Faults.none (pushNotes Faults.none Db.empty "u"
      [syncItem "00000000-0000-0000-0000-00000000000a" 1000 1,
        syncItem "00000000-0000-0000-0000-00000000000b" 1000 1]).2 "v"
      [syncItem "00000000-0000-0000-0000-00000000000c" 1000 1]).2, []⟩
    (⟨2, .ofList [("chat_message", 0), ("comment", 0), ("chat", 0), ("task", 0), ("note", 2)]⟩ :
        WipeResult).deleted =
      .ofList (wipeTables.map fun k => (k.tableName, toInt32 ((s.db.tables k).ownedBy "u").length)) ∧
      ∀ k ∈ wipeTables, ((wipeAccount Faults.none s "u" "WIPE" 7000).2.db.tables k).ownedBy "u" = [] :=
  wipeAccount_reports_counts _ _ _ _ _ rfl

/-- A wipe of a user with two task list categories and a task list reports success, yet
leaves both kinds of rows in place. -/
theorem wipeAccount_keeps_task_lists :
    match wipeAccount Faults.none
      ⟨(pushTaskLists Faults.none (pushTaskListCategories Faults.none Db.empty "u"
        [syncItem "00000000-0000-0000-0000-00000000000a" 1000 1,
          syncItem "00000000-0000-0000-0000-00000000000b" 1000 1]).2 "u"
        [syncItem "00000000-0000-0000-0000-00000000000c" 1000 1]).2, []⟩ "u" "WIPE" 5000 with
    | (result, s) =>
      result = .ok ⟨2, .ofList [("chat_message", 0), ("comment", 0), ("chat", 0), ("task", 0), ("note", 0)]⟩ ∧
        ((s.db.tables .taskListCategory).ownedBy "u").length = 2 ∧
        ((s.db.tables .taskList).ownedBy "u").length = 1 := by
  decide

end Toolbridge
