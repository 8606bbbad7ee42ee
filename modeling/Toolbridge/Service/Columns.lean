import Toolbridge.Service.Isolation
import Toolbridge.Service.Versions

/-!
# The `INT` columns stay in range

`version` and `owner_state.epoch` are `INT` columns, and the gRPC handlers hand them out
through `int32(...)` casts (`toInt32`). The casts are exact because no request stores a value
outside `[1, 2^31 - 1]` (`ColumnsInRange`):

* the upsert writes `GREATEST(v, 1)` for a new row, after pgx refused a version its `int4`
  parameter cannot hold, and fails on an increment past the range (`lwwRow_version_range`);
* `BeginSession` inserts epoch 1, and the bump of `WipeAccount` inserts 2 or fails past the
  range (`bumpEpochStmt_columnsInRange`);
* the `sync.version` patch of a REST mutation and the deletes of a wipe change no value.

So every request keeps the invariant (`Op.apply_columnsInRange`), and so does every run of the
server (`Server.run_columnsInRange`).
-/

namespace Toolbridge

/-- The `INT` columns of a store hold values of their range: every row's version and every
owner's epoch lie in `[1, 2^31 - 1]`. -/
structure ColumnsInRange (db : Db) : Prop where
  version : ∀ k, ∀ r ∈ (db.tables k).rows, 1 ≤ r.version ∧ r.version ≤ int4Max
  epoch : ∀ o st, db.ownerState o = some st → 1 ≤ st.epoch ∧ st.epoch ≤ int4Max

/-- The store of a fresh database. -/
theorem ColumnsInRange.empty : ColumnsInRange Db.empty :=
  ⟨(fun _ _ hr => nomatch hr), fun _ _ h => nomatch h⟩

/-- On the range, Go's `int32` cast is the identity. -/
theorem toInt32_of_range {v : Int} (h₁ : 1 ≤ v) (h₂ : v ≤ int4Max) : toInt32 v = v := by
  unfold toInt32
  unfold int4Max at h₂
  omega

/-! ## One statement -/

/-- The upsert leaves a version of the range, when the stored row's is and the offered one fits
the `int4` parameter. -/
theorem lwwRow_version_range {old : Option Row} {new r : Row} (h : lwwRow old new = .ok r)
    (hold : ∀ o, old = some o → 1 ≤ o.version ∧ o.version ≤ int4Max) (hnew : new.version ≤ int4Max) :
    1 ≤ r.version ∧ r.version ≤ int4Max := by
  cases old with
  | none =>
    cases h
    exact ⟨le_max_right _ _, max_le hnew (by decide)⟩
  | some o =>
    have ho := hold o rfl
    simp only [lwwRow] at h
    split_ifs at h with hlt hfit
    · cases h
      exact ⟨by dsimp only; omega, hfit⟩
    · cases h
      exact ho

namespace ColumnsInRange

variable {db : Db}

theorem lwwPut (h : ColumnsInRange db) {k : Kind} {r : Row}
    (hr : 1 ≤ r.version ∧ r.version ≤ int4Max) : ColumnsInRange (db.lwwPut k r) := by
  refine ⟨fun k' x hx => ?_, h.epoch⟩
  simp only [Db.lwwPut, Db.setTable_tables] at hx
  split_ifs at hx with hk
  · subst hk
    rcases Table.mem_put.mp hx with rfl | ⟨hx, -⟩
    · exact hr
    · exact h.version _ _ hx
  · exact h.version _ _ hx

theorem setPayload (h : ColumnsInRange db) (o : String) (u : Uuid) (g : Json → Json) :
    ColumnsInRange (db.setTable .taskListCategory
      ((db.tables .taskListCategory).setPayload o u g)) := by
  refine ⟨fun k x hx => ?_, h.epoch⟩
  simp only [Db.setTable_tables] at hx
  split_ifs at hx with hk
  · subst hk
    obtain ⟨y, hy, rfl⟩ := List.mem_map.mp hx
    have := h.version _ _ hy
    split <;> exact this
  · exact h.version _ _ hx

theorem deleteOwned (h : ColumnsInRange db) (k : Kind) (o : String) :
    ColumnsInRange (db.deleteOwned k o) := by
  refine ⟨fun k' x hx => ?_, h.epoch⟩
  simp only [Db.deleteOwned, Db.setTable_tables] at hx
  split_ifs at hx with hk
  · subst hk
    exact h.version _ _ (List.mem_of_mem_filter hx)
  · exact h.version _ _ hx

theorem foldl_deleteOwned (userID : String) :
    ∀ (ks : List Kind) {db : Db}, ColumnsInRange db →
      ColumnsInRange (ks.foldl (fun db k => db.deleteOwned k userID) db)
  | [], _, h => h
  | k :: ks, _, h => foldl_deleteOwned userID ks (h.deleteOwned k userID)

theorem setOwnerState (h : ColumnsInRange db) {o : String} {st : OwnerState}
    (hst : 1 ≤ st.epoch ∧ st.epoch ≤ int4Max) : ColumnsInRange (db.setOwnerState o st) := by
  refine ⟨h.version, fun o' st' hs => ?_⟩
  rw [Db.setOwnerState_ownerState] at hs
  split_ifs at hs
  · cases hs
    exact hst
  · exact h.epoch _ _ hs

end ColumnsInRange

/-! ## The write paths -/

theorem pushItem_columnsInRange {d : ItemKind} {f : Faults} {t : Tx} {userID : String} {item : Json}
    (h : ColumnsInRange t.db) (ha : (pushItem d f t userID item).2.aborted = false) :
    ColumnsInRange (pushItem d f t userID item).2.db := by
  by_cases he : (pushItem d f t userID item).1.error = ""
  · obtain ⟨ext, p, payload, r, -, -, -, hfit, hr, hdb, -⟩ := pushItem_ok he
    rw [hdb]
    refine h.lwwPut (lwwRow_version_range hr (fun o ho => ?_) ?_)
    · exact h.version _ _ (Table.mem_of_find_eq_some ho).1
    · simp only [fitsInt4, decide_eq_true_eq] at hfit
      exact hfit.2
  · rw [(pushItem_error he ha).1]
    exact h

theorem WriteStep.columnsInRange {db db' : Db} {w : Option (Kind × Row)} (hw : WriteStep db w db')
    (h : ColumnsInRange db) : ColumnsInRange db' := by
  cases hw with
  | push d f t userID item ha => exact pushItem_columnsInRange h ha
  | patch v o u db => exact h.setPayload o u _

theorem WriteRun.columnsInRange_getLast :
    ∀ {db : Db} {dbs : List Db}, WriteRun db dbs → ColumnsInRange db →
      ColumnsInRange ((db :: dbs).getLast (List.cons_ne_nil _ _))
  | _, [], _, h => h
  | _, _ :: _, hrun, h => by
    obtain ⟨⟨_, hw⟩, hrest⟩ := List.chain_cons.mp hrun
    rw [List.getLast_cons (List.cons_ne_nil _ _)]
    exact WriteRun.columnsInRange_getLast hrest (hw.columnsInRange h)

theorem pushHandler_columnsInRange (d : ItemKind) (f : Faults) {db : Db} (userID : String)
    (items : List Json) (h : ColumnsInRange db) :
    ColumnsInRange (pushHandler d f db userID items).2 := by
  obtain ⟨dbs, hrun, hlast⟩ := pushHandler_writeRun d f db userID items
  exact hlast ▸ hrun.columnsInRange_getLast h

theorem grpcPush_columnsInRange (d : ItemKind) (f : Faults) {db : Db} (userID : String)
    (items : List Json) (h : ColumnsInRange db) : ColumnsInRange (grpcPush d f db userID items).2 := by
  by_cases hu : userID = ""
  · simpa [grpcPush, hu] using h
  · rw [grpcPush_db d f db userID items hu, ← pushHandler_db]
    exact pushHandler_columnsInRange d f userID items h

theorem applyTaskListCategoryMutation_columnsInRange (f : Faults) {db : Db} (userID : String)
    (payload : Json) (opts : MutationOpts) (fresh : Uuid) (now : Int) (h : ColumnsInRange db) :
    ColumnsInRange (applyTaskListCategoryMutation f db userID payload opts fresh now).2 := by
  obtain ⟨dbs, hrun, hlast⟩ := applyTaskListCategoryMutation_writeRun f db userID payload opts fresh now
  exact hlast ▸ hrun.columnsInRange_getLast h

/-- Every ack without error of a batch that ends live reports a version of the range: it is the
version of the row the item left. -/
theorem pushLoop_ack_range {d : ItemKind} {f : Faults} {userID : String} :
    ∀ {t : Tx} {items : List Json}, ColumnsInRange t.db →
      (pushLoop d f userID t items).2.aborted = false →
      ∀ a ∈ (pushLoop d f userID t items).1, a.error = "" → 1 ≤ a.version ∧ a.version ≤ int4Max
  | _, [], _, _ => fun _ ha => nomatch ha
  | t, item :: items, h, ha => by
    rw [pushLoop_cons] at ha ⊢
    have h' := pushItem_columnsInRange h (pushLoop_live ha)
    intro a hmem he
    rcases List.mem_cons.mp hmem with rfl | hmem
    · obtain ⟨u, r, hfind, hack⟩ := pushItem_ack he
      rw [hack]
      exact h'.version _ _ (Table.mem_of_find_eq_some hfind).1
    · exact pushLoop_ack_range h' ha a hmem he

/-- On a store whose `INT` columns are in range, gRPC `Push` answers what the HTTP push handler
answers: a committed batch leaves the same store, its acks are the handler's acks, and every
accepted item's ack reports the handler's version, since `int32(svcAck.Version)` does not wrap.
(A refused item's ack echoes the client's `sync.version`, which the cast may wrap.) -/
theorem grpcPush_agrees (d : ItemKind) (f : Faults) (db : Db) (userID : String)
    (items : List Json) (hu : userID ≠ "") (h : ColumnsInRange db) {acks : List GrpcAck}
    (hg : (grpcPush d f db userID items).1 = .ok acks) :
    ∃ sacks, pushHandler d f db userID items = ((200, sacks), (grpcPush d f db userID items).2) ∧
      acks = sacks.map PushAck.toGrpc ∧ ∀ a ∈ sacks, a.error = "" → a.toGrpc.version = a.version := by
  rw [grpcPush_eq d f db userID items hu] at hg ⊢
  rw [pushHandler_eq]
  rcases hb : batchCommit d f db userID items with _ | db'
  · simp [hb] at hg
  simp only [hb, Except.ok.injEq] at hg ⊢
  obtain ⟨-, ha, -, -⟩ := batchCommit_eq_some.mp hb
  refine ⟨_, rfl, hg.symm, fun a hmem he => ?_⟩
  have hr := pushLoop_ack_range (show ColumnsInRange (Tx.begin db).db from h) ha a hmem he
  exact toInt32_of_range hr.1 hr.2

/-- A note pushed over gRPC on a fresh database: the HTTP handler answers the same ack. -/
theorem grpcPush_agrees_note :
    ∃ sacks, pushHandler (rootItems .note) Faults.none Db.empty "u"
        [syncItem "00000000-0000-0000-0000-00000000000a" 5 1] =
        ((200, sacks), (grpcPush (rootItems .note) Faults.none Db.empty "u"
          [syncItem "00000000-0000-0000-0000-00000000000a" 5 1]).2) ∧
      [⟨"00000000-0000-0000-0000-00000000000a", 1, "", some (rfc3339 5)⟩] =
        sacks.map PushAck.toGrpc ∧
      ∀ a ∈ sacks, a.error = "" → a.toGrpc.version = a.version :=
  grpcPush_agrees _ _ _ _ _ (by decide) ColumnsInRange.empty (by decide)

/-! ## Sessions and wipes -/

theorem initEpoch_columnsInRange (f : Faults) {db : Db} (userID : String) (h : ColumnsInRange db) :
    ColumnsInRange (initEpoch f db userID).2 := by
  unfold initEpoch autocommit initEpochStmt
  split_ifs
  · exact h
  · split <;> rename_i heq <;> split at heq <;> cases heq
    · exact h
    · exact h.setOwnerState (by decide)

/-- The store `BeginSession` leaves is the one its lazy insert leaves. -/
theorem openSession_db (f : Faults) (s : Server) (userID id : String) (now : Int) :
    (openSession f s userID id now).2.db = (initEpoch f s.db userID).2 := by
  unfold openSession
  rcases hq : initEpoch f s.db userID with ⟨_ | (_ | epoch), db⟩
  · dsimp only
    simp only [initEpoch, autocommit] at hq
    split_ifs at hq
    · exact congrArg Prod.snd hq
    · split at hq <;> cases hq
      rfl
  · dsimp only
    cases loadEpoch f db userID <;> rfl
  · rfl

theorem openSession_columnsInRange (f : Faults) {s : Server} (userID id : String) (now : Int)
    (h : ColumnsInRange s.db) : ColumnsInRange (openSession f s userID id now).2.db :=
  openSession_db f s userID id now ▸ initEpoch_columnsInRange f userID h

theorem beginSession_columnsInRange (f : Faults) {s : Server} (userID id : String) (now : Int)
    (h : ColumnsInRange s.db) : ColumnsInRange (beginSession f s userID id now).2.db := by
  rw [beginSession_snd]
  split_ifs
  · exact h
  · exact openSession_columnsInRange f userID id now h

theorem beginSessionHttp_columnsInRange (f : Faults) {s : Server} (userID id : String) (now : Int)
    (h : ColumnsInRange s.db) : ColumnsInRange (beginSessionHttp f s userID id now).2.db := by
  rw [beginSessionHttp_snd]
  split_ifs
  · exact h
  · exact openSession_columnsInRange f userID id now h

/-- The bump inserts epoch 2, or increments within the range. -/
theorem bumpEpochStmt_columnsInRange {userID : String} {now e : Int} {db db₁ : Db}
    (hb : bumpEpochStmt userID now db = .ok (e, db₁)) (h : ColumnsInRange db) : ColumnsInRange db₁ := by
  unfold bumpEpochStmt at hb
  split at hb
  · cases hb
    exact h.setOwnerState (show (1 : Int) ≤ 2 ∧ (2 : Int) ≤ int4Max by decide)
  · rename_i st hs
    split_ifs at hb with hfit
    cases hb
    exact h.setOwnerState ⟨by have := (h.epoch _ _ hs).1; dsimp only; omega, hfit⟩

theorem wipeAccount_columnsInRange (f : Faults) {s : Server} (userID confirm : String) (now : Int)
    (h : ColumnsInRange s.db) : ColumnsInRange (wipeAccount f s userID confirm now).2.db := by
  unfold wipeAccount
  split_ifs
  · exact h
  · exact h
  rcases wipeTx_eq f s.db userID now with ⟨e, heq⟩ | ⟨e, d, db₁, hb, heq⟩ <;> rw [heq]
  · exact h
  · exact ColumnsInRange.foldl_deleteOwned userID _ (bumpEpochStmt_columnsInRange hb h)

/-! ## Runs -/

/-- Every request keeps the columns in range. -/
theorem Op.apply_columnsInRange (op : Op) {s : Server} (h : ColumnsInRange s.db) :
    ColumnsInRange (op.apply s).2.db := by
  cases op with
  | push k f userID items => exact pushHandler_columnsInRange _ f userID items h
  | grpcPush k f userID items => exact grpcPush_columnsInRange _ f userID items h
  | restMutation f userID payload opts fresh now =>
    exact applyTaskListCategoryMutation_columnsInRange f userID payload opts fresh now h
  | beginSession f userID id now => exact beginSession_columnsInRange f userID id now h
  | beginSessionHttp f userID id now => exact beginSessionHttp_columnsInRange f userID id now h
  | wipeAccount f userID confirm now => exact wipeAccount_columnsInRange f userID confirm now h
  | _ => exact h

theorem Server.run_columnsInRange : ∀ (ops : List Op) {s : Server}, ColumnsInRange s.db →
    ColumnsInRange (s.run ops).2.db
  | [], _, h => h
  | op :: ops, _, h => Server.run_columnsInRange ops (op.apply_columnsInRange h)

end Toolbridge
