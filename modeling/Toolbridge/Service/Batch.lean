import Toolbridge.Service.PushSpec
import Toolbridge.Store.Lww

/-!
# Push batches: what a committed batch did

A push handler runs every item of a batch in one transaction and commits it. This module
says what the store looks like afterwards.

* A committed batch applied, in batch order, the LWW upsert of exactly the items acked
  without error; a failed batch changed nothing (`pushLoop_db`, `pushHandler_db`). On its
  kind's table this is the run of upserts `Table.upsertAll` of the rows those items offered
  (`pushHandler_upsertAll`), so LWW decides every key of a committed batch
  (`pushHandler_converges`).
* Once committed, a batch is absorbed by the store: pushing it again changes nothing
  (`pushLoop_absorbs`, `pushLoop_stable`). The argument is a closure one: the batch only
  writes its own kind's table, where rows are never removed and never get older, and
  every item it accepted or rejected by a check meets the same verdict again.
-/

namespace Toolbridge

/-! ## The LWW effect of an item -/

/-- The LWW upsert of `new` into kind `k`, as a function of the store; an overflow leaves
the store as it was. -/
def Db.lwwUpsert (db : Db) (k : Kind) (new : Row) : Db :=
  match lwwRow ((db.tables k).find new.ownerId new.uid) new with
  | .ok r => db.lwwPut k r
  | .error _ => db

/-- The row an item offers to the upsert, when its header and payload can be read. -/
def offeredRow (d : ItemKind) (userID : String) (item : Json) : Option Row :=
  match d.extract item, jsonMarshal item with
  | .ok (ext, p), .ok payload => some (ext.toRow userID payload p)
  | _, _ => none

/-- The store after the LWW upserts of the items acked without error, in batch order. -/
def applyAccepted (d : ItemKind) (userID : String) : Db → List (Json × PushAck) → Db
  | db, [] => db
  | db, (item, ack) :: rest =>
    applyAccepted d userID
      (if ack.error = "" then ((offeredRow d userID item).map (db.lwwUpsert d.table)).getD db
        else db) rest

theorem Db.setTable_self (db : Db) (k : Kind) : db.setTable k (db.tables k) = db := by
  simp [Db.setTable]

/-- Writing back the row the table holds leaves the store. -/
theorem Db.lwwPut_of_find {db : Db} {k : Kind} {r : Row}
    (h : (db.tables k).find r.ownerId r.uid = some r) : db.lwwPut k r = db := by
  rw [Db.lwwPut, Table.put_of_find h, Db.setTable_self]

/-- The LWW effect of an accepted item. -/
theorem pushItem_accepted {d : ItemKind} {f : Faults} {t : Tx} {userID : String} {item : Json}
    (h : (pushItem d f t userID item).1.error = "") :
    (pushItem d f t userID item).2.aborted = false ∧
      (pushItem d f t userID item).2.db =
        ((offeredRow d userID item).map (t.db.lwwUpsert d.table)).getD t.db := by
  obtain ⟨ext, p, payload, r, hx, -, hm, -, hr, hdb, ha⟩ := pushItem_ok h
  refine ⟨ha, ?_⟩
  simp only [offeredRow, hx, hm, Option.map_some', Option.getD_some, Db.lwwUpsert]
  rw [hdb]
  exact (by rw [show (ext.toRow userID payload p).ownerId = userID from rfl,
    show (ext.toRow userID payload p).uid = ext.uid from rfl, hr])

/-- A batch that ends live applied exactly the LWW effects of its accepted items. -/
theorem pushLoop_db {d : ItemKind} {f : Faults} {userID : String} {t : Tx} {items : List Json}
    (h : (pushLoop d f userID t items).2.aborted = false) :
    (pushLoop d f userID t items).2.db =
      applyAccepted d userID t.db (items.zip (pushLoop d f userID t items).1) := by
  induction items generalizing t with
  | nil => rfl
  | cons item items ih =>
    rw [pushLoop_cons] at h ⊢
    rw [ih h, List.zip_cons_cons, applyAccepted]
    congr 1
    split_ifs with he
    · exact (pushItem_accepted he).2
    · exact (pushItem_error he (pushLoop_live h)).1

/-- The rows the items acked without error offered, in batch order. -/
def acceptedRows (d : ItemKind) (userID : String) (items : List Json) (acks : List PushAck) :
    List Row :=
  (items.zip acks).filterMap fun ia => if ia.2.error = "" then offeredRow d userID ia.1 else none

/-- A batch that ends live ran on its kind's table the upserts of the rows its accepted items
offered, in batch order, and left every other table. -/
theorem pushLoop_upsertAll {d : ItemKind} {f : Faults} {userID : String} {t : Tx}
    {items : List Json} (h : (pushLoop d f userID t items).2.aborted = false) :
    (t.db.tables d.table).upsertAll (acceptedRows d userID items (pushLoop d f userID t items).1) =
        .ok ((pushLoop d f userID t items).2.db.tables d.table) ∧
      ∀ k, k ≠ d.table → (pushLoop d f userID t items).2.db.tables k = t.db.tables k := by
  induction items generalizing t with
  | nil => exact ⟨rfl, fun _ _ => rfl⟩
  | cons item items ih =>
    rw [pushLoop_cons] at h ⊢
    obtain ⟨ih₁, ih₂⟩ := ih h
    simp only [acceptedRows, List.zip_cons_cons, List.filterMap_cons] at ih₁ ⊢
    by_cases he : (pushItem d f t userID item).1.error = ""
    -- the item's row is upserted first
    · obtain ⟨ext, p, payload, r, hx, -, hm, -, hr, hdb, -⟩ := pushItem_ok he
      rw [hdb] at ih₁ ih₂
      refine ⟨?_, fun k hk => (ih₂ k hk).trans (by simp [Db.lwwPut, hk])⟩
      simp only [he, if_true, offeredRow, hx, hm]
      exact Table.upsertAll_cons.mpr ⟨r, hr, by simpa [Db.lwwPut] using ih₁⟩
    -- the item changed nothing
    · rw [(pushItem_error he (pushLoop_live h)).1] at ih₁ ih₂
      simpa [he] using ⟨ih₁, ih₂⟩

/-! ## The handlers -/

/-- The store a batch commits, if it commits: the begin round trip, the loop and the commit. -/
def batchCommit (d : ItemKind) (f : Faults) (db : Db) (userID : String) (items : List Json) :
    Option Db :=
  if f 0 then none
  else match (pushLoop d f userID (Tx.begin db) items).2.commit f with
    | .ok db' => some db'
    | .error _ => none

theorem batchCommit_eq_some {d : ItemKind} {f : Faults} {db db' : Db} {userID : String}
    {items : List Json} :
    batchCommit d f db userID items = some db' ↔
      f 0 = false ∧ (pushLoop d f userID (Tx.begin db) items).2.aborted = false ∧
        f (pushLoop d f userID (Tx.begin db) items).2.stmt = false ∧
        db' = (pushLoop d f userID (Tx.begin db) items).2.db := by
  unfold batchCommit
  cases f 0 <;> simp only [Bool.false_eq_true, if_true, if_false, reduceCtorEq, false_and,
    true_and]
  split <;> rename_i h
  · simp only [Option.some.injEq]; rw [Tx.commit_eq_ok] at h; rw [eq_comm]; simp [h]
  · simp only [reduceCtorEq, false_iff, not_and]
    intro ha hf _
    rw [Tx.commit_eq_ok.mpr ⟨ha, hf, rfl⟩] at h
    cases h

theorem pushHandler_eq (d : ItemKind) (f : Faults) (db : Db) (userID : String)
    (items : List Json) :
    pushHandler d f db userID items =
      match batchCommit d f db userID items with
      | some db' => ((200, (pushLoop d f userID (Tx.begin db) items).1), db')
      | none => ((500, batchError (if f 0 then "transaction error" else "commit failed")), db) := by
  unfold pushHandler batchCommit
  cases f 0 <;> simp only [Bool.false_eq_true, if_true, if_false]
  split <;> simp_all

theorem grpcPush_eq (d : ItemKind) (f : Faults) (db : Db) (userID : String) (items : List Json)
    (hu : userID ≠ "") :
    grpcPush d f db userID items =
      match batchCommit d f db userID items with
      | some db' => (.ok ((pushLoop d f userID (Tx.begin db) items).1.map PushAck.toGrpc), db')
      | none => (.error (.internal, if f 0 then "db error" else "commit error"), db) := by
  unfold grpcPush batchCommit
  rw [if_neg hu]
  cases f 0 <;> simp only [Bool.false_eq_true, if_true, if_false]
  split <;> simp_all

/-- The store a handler leaves: the committed one, or the old one. -/
theorem pushHandler_db (d : ItemKind) (f : Faults) (db : Db) (userID : String)
    (items : List Json) :
    (pushHandler d f db userID items).2 = (batchCommit d f db userID items).getD db := by
  rw [pushHandler_eq]; split <;> simp_all

theorem pushHandler_status (d : ItemKind) (f : Faults) (db : Db) (userID : String)
    (items : List Json) :
    (pushHandler d f db userID items).1.1 = 200 ↔ (batchCommit d f db userID items).isSome := by
  rw [pushHandler_eq]; split <;> simp_all

/-- A committed batch acts on its kind's table as the run of upserts of the rows its accepted
items offered (`Table.upsertAll`), and leaves every other table. -/
theorem pushHandler_upsertAll (d : ItemKind) (f : Faults) (db : Db) (userID : String)
    (items : List Json) (h : (pushHandler d f db userID items).1.1 = 200) :
    (db.tables d.table).upsertAll (acceptedRows d userID items (pushHandler d f db userID items).1.2) =
        .ok ((pushHandler d f db userID items).2.tables d.table) ∧
      ∀ k, k ≠ d.table → (pushHandler d f db userID items).2.tables k = db.tables k := by
  rw [pushHandler_eq] at h ⊢
  rcases hb : batchCommit d f db userID items with _ | db'
  · simp [hb] at h
  obtain ⟨-, ha, -, rfl⟩ := batchCommit_eq_some.mp hb
  exact pushLoop_upsertAll ha

/-- LWW decides each key a committed batch wrote: the row under `(o, u)` carries the content of
the LWW winner among the stored row and the rows the accepted items offered to that key, when
those with equal timestamps carry equal content. -/
theorem pushHandler_converges (d : ItemKind) (f : Faults) (db : Db) (userID : String)
    (items : List Json) (h : (pushHandler d f db userID items).1.1 = 200) (o : String) (u : Uuid)
    (hties : ∀ a ∈ acceptedRows d userID items (pushHandler d f db userID items).1.2,
      ∀ b ∈ acceptedRows d userID items (pushHandler d f db userID items).1.2,
        a.key = (o, u) → b.key = (o, u) → a.updatedAtMs = b.updatedAtMs → a.content = b.content)
    {w : Row} (hw : IsLwwWinner ((db.tables d.table).find o u)
      ((acceptedRows d userID items (pushHandler d f db userID items).1.2).filter (·.key = (o, u))) w) :
    ∃ r, ((pushHandler d f db userID items).2.tables d.table).find o u = some r ∧
      r.content = w.content :=
  upsertAll_find_winner (fun a ha b hb => by
      simp only [List.mem_filter, decide_eq_true_eq] at ha hb
      exact hties a ha.1 b hb.1 ha.2 hb.2)
    (List.Perm.refl _) (pushHandler_upsertAll d f db userID items h).1 hw

/-- A request without a user changes nothing. -/
theorem grpcPush_anonymous (d : ItemKind) (f : Faults) (db : Db) (items : List Json) :
    grpcPush d f db "" items = (.error (.unauthenticated, "missing user"), db) := rfl

theorem grpcPush_db (d : ItemKind) (f : Faults) (db : Db) (userID : String)
    (items : List Json) (hu : userID ≠ "") :
    (grpcPush d f db userID items).2 = (batchCommit d f db userID items).getD db := by
  rw [grpcPush_eq d f db userID items hu]; split <;> simp_all

theorem grpcPush_isOk (d : ItemKind) (f : Faults) (db : Db) (userID : String)
    (items : List Json) (hu : userID ≠ "") :
    (grpcPush d f db userID items).1.isOk = (batchCommit d f db userID items).isSome := by
  rw [grpcPush_eq d f db userID items hu]; split <;> simp_all [Except.isOk, Except.toBool]

/-! ## What a committed batch did -/

/-- A pushed item: its `uid` text, `sync.updatedAtMs` and `sync.version`. -/
def syncItem (uid : String) (ms v : Int) : Json :=
  .obj [("uid", .str uid), ("sync", .obj [("updatedAtMs", .num ms), ("version", .num v)])]

/-- A category `…0a` of `u` pushed at the top `INT` version. -/
def topVersionCategory : Db :=
  (pushTaskListCategories Faults.none Db.empty "u"
    [syncItem "00000000-0000-0000-0000-00000000000a" 1 2147483647]).2

/-- A statement failure inside one item sinks the whole batch: on a category stored at the top
`INT` version, a batch holding a newer write to it and a fresh category. The first item's
update overflows, which aborts the transaction; the second item then fails too, the commit
rolls back and the fresh category, which commits on its own, is lost. -/
theorem pushTaskListCategories_overflow_blocks_batch :
    (pushTaskListCategories Faults.none Db.empty "u"
        [syncItem "00000000-0000-0000-0000-00000000000a" 1 2147483647]).1.1 = 200 ∧
    (pushLoop (rootItems .taskListCategory) Faults.none "u" (Tx.begin topVersionCategory)
        [syncItem "00000000-0000-0000-0000-00000000000a" 2 1,
          syncItem "00000000-0000-0000-0000-00000000000b" 1 1]).1.map PushAck.error =
      [outOfRangeError, txAbortedError] ∧
    (pushTaskListCategories Faults.none topVersionCategory "u"
        [syncItem "00000000-0000-0000-0000-00000000000a" 2 1,
          syncItem "00000000-0000-0000-0000-00000000000b" 1 1]).1 = (500, batchError "commit failed") ∧
    (pushTaskListCategories Faults.none topVersionCategory "u"
        [syncItem "00000000-0000-0000-0000-00000000000b" 1 1]).1.1 = 200 := by
  decide

/-! ## Absorption -/

/-- `db'` grows from `db` in the table of kind `k`: the other tables are untouched, and
every row of `k` is still there and no older. -/
def Grows (k : Kind) (db db' : Db) : Prop :=
  (∀ k', k' ≠ k → db'.tables k' = db.tables k') ∧
    ∀ o u old, (db.tables k).find o u = some old →
      ∃ new, (db'.tables k).find o u = some new ∧ old.updatedAtMs ≤ new.updatedAtMs

theorem Grows.refl (k : Kind) (db : Db) : Grows k db db :=
  ⟨fun _ _ => rfl, fun _ _ old h => ⟨old, h, le_refl _⟩⟩

theorem Grows.trans {k : Kind} {db₁ db₂ db₃ : Db} (h₁ : Grows k db₁ db₂) (h₂ : Grows k db₂ db₃) :
    Grows k db₁ db₃ := by
  refine ⟨fun k' hk => (h₂.1 k' hk).trans (h₁.1 k' hk), fun o u old h => ?_⟩
  obtain ⟨mid, hmid, hle⟩ := h₁.2 o u old h
  obtain ⟨new, hnew, hle'⟩ := h₂.2 o u mid hmid
  exact ⟨new, hnew, hle.trans hle'⟩

/-- Writing a row no older than the one under its key grows the table. -/
theorem Grows.lwwPut {db : Db} {k : Kind} {r : Row}
    (h : ∀ old, (db.tables k).find r.ownerId r.uid = some old → old.updatedAtMs ≤ r.updatedAtMs) :
    Grows k db (db.lwwPut k r) := by
  refine ⟨fun k' hk => by simp [Db.lwwPut, hk], fun o u old hold => ?_⟩
  simp only [Db.lwwPut, Db.setTable_tables, if_true, Table.find_put]
  split_ifs with hk
  · simp only [Row.key, Prod.mk.injEq] at hk
    obtain ⟨rfl, rfl⟩ := hk
    exact ⟨r, rfl, h old hold⟩
  · exact ⟨old, hold, le_refl _⟩

variable {d : ItemKind} {f : Faults} {userID : String}

/-- An item that leaves its transaction live grows the table of its kind. -/
theorem pushItem_grows {t : Tx} {item : Json} (ha : (pushItem d f t userID item).2.aborted = false) :
    Grows d.table t.db (pushItem d f t userID item).2.db := by
  by_cases he : (pushItem d f t userID item).1.error = ""
  · obtain ⟨ext, p, payload, r, -, -, -, -, hr, hdb, -⟩ := pushItem_ok he
    rw [hdb]
    refine Grows.lwwPut fun old hold => (lwwRow_ms hr).2 old ?_
    have hk := lwwRow_toRow_key hr
    simp only [Row.key, Prod.mk.injEq] at hk
    rwa [hk.1, hk.2] at hold
  · rw [(pushItem_error he ha).1]; exact Grows.refl _ _

theorem pushLoop_grows {t : Tx} {items : List Json}
    (ha : (pushLoop d f userID t items).2.aborted = false) :
    Grows d.table t.db (pushLoop d f userID t items).2.db := by
  induction items generalizing t with
  | nil => exact Grows.refl _ _
  | cons item items ih => exact (pushItem_grows (pushLoop_live ha)).trans (ih ha)

/-- The store has absorbed `item`: offered again, the item would meet the same verdict from
every check, and LWW would keep the stored row. -/
def Absorbs (d : ItemKind) (userID : String) (db : Db) (item : Json) : Prop :=
  ∀ ext p payload, d.extract item = .ok (ext, p) → jsonMarshal item = .ok payload →
    fitsInt4 ext.version = true → parentOk db userID ext p = true →
    ∃ old, (db.tables d.table).find userID ext.uid = some old ∧ ext.updatedAtMs ≤ old.updatedAtMs

/-- Absorption survives growth: the parent the item names lives in another table. -/
theorem Absorbs.mono {db db' : Db} {item : Json} (hg : Grows d.table db db')
    (h : Absorbs d userID db item) : Absorbs d userID db' item := by
  intro ext p payload hx hm hv hp
  have hp' : parentOk db userID ext p = true := by
    rwa [parentOk_congr fun k hk => hg.1 k fun hkd => d.extract_parent hx (hkd ▸ hk)] at hp
  obtain ⟨old, hold, hle⟩ := h ext p payload hx hm hv hp'
  obtain ⟨new, hnew, hle'⟩ := hg.2 _ _ old hold
  exact ⟨new, hnew, hle.trans hle'⟩

/-- An item that leaves its transaction live is absorbed by the store it leaves. -/
theorem pushItem_absorbs {t : Tx} {item : Json} (ha : (pushItem d f t userID item).2.aborted = false) :
    Absorbs d userID (pushItem d f t userID item).2.db item := by
  intro ext p payload hx hm hv hp
  by_cases he : (pushItem d f t userID item).1.error = ""
  · obtain ⟨ext', p', payload', r, hx', -, hm', -, hr, hdb, -⟩ := pushItem_ok he
    obtain ⟨rfl, rfl⟩ := Prod.mk.inj (Except.ok.inj (hx.symm.trans hx'))
    obtain rfl := Except.ok.inj (hm.symm.trans hm')
    refine ⟨r, ?_, (lwwRow_ms hr).1⟩
    rw [hdb, Db.lwwPut, Db.setTable_tables, if_pos rfl, Table.find_put,
      if_pos (lwwRow_toRow_key hr)]
  · obtain ⟨hdb, hrej⟩ := pushItem_error he ha
    rw [hdb] at hp
    exact absurd (hrej ext p payload hx hm hv) (by simp [hp])

/-- A batch that ends live is absorbed, item by item, by the store it leaves. -/
theorem pushLoop_absorbs {t : Tx} {items : List Json}
    (ha : (pushLoop d f userID t items).2.aborted = false) :
    ∀ item ∈ items, Absorbs d userID (pushLoop d f userID t items).2.db item := by
  induction items generalizing t with
  | nil => simp
  | cons item items ih =>
    rw [pushLoop_cons] at ha ⊢
    intro x hx
    rcases List.mem_cons.mp hx with rfl | hx
    · exact (pushItem_absorbs (pushLoop_live ha)).mono (pushLoop_grows ha)
    · exact ih ha x hx

/-- An absorbed item changes nothing. -/
theorem pushItem_stable {t : Tx} {item : Json} (h : Absorbs d userID t.db item)
    (ha : (pushItem d f t userID item).2.aborted = false) :
    (pushItem d f t userID item).2.db = t.db := by
  by_cases he : (pushItem d f t userID item).1.error = ""
  · obtain ⟨ext, p, payload, r, hx, hp, hm, hv, hr, hdb, -⟩ := pushItem_ok he
    obtain ⟨old, hold, hle⟩ := h ext p payload hx hm hv hp
    have hkeep : lwwRow (some old) (ext.toRow userID payload p) = .ok old := by
      simp [lwwRow, Extracted.toRow, not_lt.mpr hle]
    rw [hold, hkeep] at hr
    obtain rfl := Except.ok.inj hr
    obtain ⟨-, hk⟩ := Table.mem_of_find_eq_some hold
    simp only [Row.key, Prod.mk.injEq] at hk
    rw [hdb, Db.lwwPut_of_find (by rw [hk.1, hk.2]; exact hold)]
  · exact (pushItem_error he ha).1

/-- A batch the store has absorbed changes nothing. -/
theorem pushLoop_stable {t : Tx} {items : List Json} (h : ∀ item ∈ items, Absorbs d userID t.db item)
    (ha : (pushLoop d f userID t items).2.aborted = false) :
    (pushLoop d f userID t items).2.db = t.db := by
  induction items generalizing t with
  | nil => rfl
  | cons item items ih =>
    rw [pushLoop_cons] at ha ⊢
    have hs := pushItem_stable (h item (List.mem_cons_self _ _)) (pushLoop_live ha)
    rw [ih (fun x hx => hs ▸ h x (List.mem_cons_of_mem _ hx)) ha, hs]

/-- A committed batch committed again, under any faults, changes nothing. -/
theorem batchCommit_absorbed {f₁ f₂ : Faults} {db db₁ : Db} {items : List Json}
    (h : batchCommit d f₁ db userID items = some db₁) :
    (batchCommit d f₂ db₁ userID items).getD db₁ = db₁ := by
  obtain ⟨-, ha, -, rfl⟩ := batchCommit_eq_some.mp h
  rcases h₂ : batchCommit d f₂ (pushLoop d f₁ userID (Tx.begin db) items).2.db userID items with
    _ | db₂
  · rfl
  · obtain ⟨-, ha₂, -, rfl⟩ := batchCommit_eq_some.mp h₂
    exact pushLoop_stable (pushLoop_absorbs ha) ha₂

/-- Push batches are idempotent on the store: pushing a batch twice, through the HTTP
handler or the gRPC `Push`, leaves the store as the one push that committed left it. -/
theorem pushHandler_idempotent (d : ItemKind) (f₁ f₂ : Faults) (db : Db) (userID : String)
    (items : List Json) :
    (pushHandler d f₂ (pushHandler d f₁ db userID items).2 userID items).2 =
      (if (pushHandler d f₁ db userID items).1.1 = 200 then (pushHandler d f₁ db userID items).2
        else (pushHandler d f₂ db userID items).2) ∧
    (grpcPush d f₂ (grpcPush d f₁ db userID items).2 userID items).2 =
      (if (grpcPush d f₁ db userID items).1.isOk then (grpcPush d f₁ db userID items).2
        else (grpcPush d f₂ db userID items).2) := by
  constructor
  -- the HTTP handler: a committed batch is absorbed, a failed one left the store
  · have hs := pushHandler_status d f₁ db userID items
    rcases h : batchCommit d f₁ db userID items with _ | db₁ <;>
      simp only [h, Option.isSome_none, Option.isSome_some, Bool.false_eq_true, iff_false,
        iff_true] at hs <;>
      simp only [hs, if_true, if_false, pushHandler_db, h, Option.getD_none, Option.getD_some]
    exact batchCommit_absorbed h
  -- the gRPC `Push`: the same, once a request without a user is set aside
  · by_cases hu : userID = ""
    · subst hu; simp [grpcPush_anonymous]
    simp only [grpcPush_isOk _ _ _ _ _ hu, grpcPush_db _ _ _ _ _ hu]
    rcases h : batchCommit d f₁ db userID items with _ | db₁
    · rfl
    · exact batchCommit_absorbed h

end Toolbridge
