import Toolbridge.Service.Rest
import Toolbridge.Service.Batch

/-!
# The version counter

Every row carries a server-controlled `version` (§3): the insert writes `GREATEST(v, 1)`
and a strictly newer write increments it (§4.C). This module follows one row through
any run of writes: items pushed by any push path, and the statement by which a REST
mutation patches `payload.sync.version`. The REST mutation's own writes are one pushed item
and that patch (`applyTaskListCategoryMutation_writeRun`), and a committed push batch is
its items in order (`pushHandler_writeRun`).

Over such a run a row's timestamp never decreases, and its version moves exactly when the
timestamp strictly rises, by one (`writeStep_rowStep`), so that it counts the strictly
newer writes since the insert (`writeRun_version`).

A REST mutation on the clock answers the row a read right after its commit returns, payload
and tombstone included (`applyTaskListCategoryMutation_reads_back`). A mutation on the clock of a stored
row moves it to the next version (`applyTaskListCategoryMutation_version`), so a later
mutation that still expects the version read before it is refused
(`applyTaskListCategoryMutation_refuses_stale`). The counter is an `INT`: a row at the top of
its range refuses every strictly newer write (`pushItem_saturated`).
-/

namespace Toolbridge

/-! ## Writes -/

/-- One write on what its transaction sees, with the row it offered to the upsert: an item
pushed by any push path that leaves its transaction live, or the `sync.version` patch of a
REST mutation, which offers none. -/
inductive WriteStep : Db → Option (Kind × Row) → Db → Prop
  | push (d : ItemKind) (f : Faults) (t : Tx) (userID : String) (item : Json)
      (h : (pushItem d f t userID item).2.aborted = false) :
      WriteStep t.db ((offeredRow d userID item).map ((d.table, ·))) (pushItem d f t userID item).2.db
  | patch (v : Int) (o : String) (u : Uuid) (db : Db) :
      WriteStep db none (db.setTable .taskListCategory
        ((db.tables .taskListCategory).setPayload o u fun j => setSyncVersion j v))

/-- A run of writes from `db` through the stores `dbs`, each one write after the last. -/
def WriteRun (db : Db) (dbs : List Db) : Prop := dbs.Chain (fun a b => ∃ w, WriteStep a w b) db

/-- What one write may do to the row under one key: an insert starts its version at 1 or
more; a stored row is never removed, its timestamp never decreases, and its version changes
exactly when the timestamp strictly rises, and then by one. -/
def RowStep : Option Row → Option Row → Prop
  | none, none => True
  | none, some r => 1 ≤ r.version
  | some _, none => False
  | some o, some r => o.updatedAtMs ≤ r.updatedAtMs ∧
      (r.version ≠ o.version ↔ o.updatedAtMs < r.updatedAtMs) ∧
      (r.version ≠ o.version → r.version = o.version + 1)

/-- Whether the timestamp of a stored row strictly rose. -/
def stampRises : Option Row → Option Row → Bool
  | some o, some r => o.updatedAtMs < r.updatedAtMs
  | _, _ => false

/-- The writes of a run that strictly raised the timestamp of the row under `(k, o, u)`. -/
def newerWrites (k : Kind) (o : String) (u : Uuid) : List Db → Nat
  | a :: b :: rest =>
    (if stampRises ((a.tables k).find o u) ((b.tables k).find o u) then 1 else 0) +
      newerWrites k o u (b :: rest)
  | _ => 0

/-! ## One row, one write -/

/-- A change that keeps the counter columns is a step. -/
theorem rowStep_map {x : Option Row} {g : Row → Row} (hv : ∀ r, (g r).version = r.version)
    (hm : ∀ r, (g r).updatedAtMs = r.updatedAtMs) : RowStep x (x.map g) := by
  cases x with
  | none => trivial
  | some o => simp [RowStep, hv, hm]

theorem rowStep_refl (x : Option Row) : RowStep x x := by
  simpa using rowStep_map (x := x) (g := id) (fun _ => rfl) (fun _ => rfl)

/-- The LWW upsert is a step. -/
theorem lwwRow_rowStep {old : Option Row} {new r : Row} (h : lwwRow old new = .ok r) :
    RowStep old (some r) := by
  unfold lwwRow at h
  split at h
  · cases h; exact le_max_right _ _
  · rename_i o
    split at h
    · split at h
      · rename_i hlt _
        cases h
        exact ⟨le_of_lt hlt, iff_of_true (by show o.version + 1 ≠ o.version; omega) hlt, fun _ => rfl⟩
      · cases h
    · cases h; simp [RowStep]

theorem Table.find_setPayload (t : Table) (o o' : String) (u u' : Uuid) (g : Json → Json) :
    (t.setPayload o u g).find o' u' = (t.find o' u').map fun r =>
      if r.key = (o, u) then { r with payloadJson := g r.payloadJson } else r := by
  simp only [Table.find, Table.setPayload, List.find?_map]
  congr 2
  funext r
  simp only [Function.comp_apply]
  split <;> rfl

variable {k : Kind} {o : String} {u : Uuid}

/-- What a pushed item does to the row under one key: nothing, or the LWW upsert of the row
it offered. -/
theorem pushItem_find {d : ItemKind} {f : Faults} {t : Tx} {userID : String} {item : Json}
    (h : (pushItem d f t userID item).2.aborted = false) :
    ((pushItem d f t userID item).2.db.tables k).find o u = (t.db.tables k).find o u ∨
      ∃ n r, offeredRow d userID item = some n ∧ k = d.table ∧ n.key = (o, u) ∧
        lwwRow ((t.db.tables k).find o u) n = .ok r ∧
        ((pushItem d f t userID item).2.db.tables k).find o u = some r := by
  by_cases he : (pushItem d f t userID item).1.error = ""
  · obtain ⟨ext, p, payload, r, hx, -, hm, -, hr, hdb, -⟩ := pushItem_ok he
    have hkey := lwwRow_toRow_key hr
    rw [hdb, Db.find_lwwPut]
    split_ifs with hit
    · obtain ⟨rfl, hko⟩ := hit
      rw [hkey] at hko
      refine .inr ⟨ext.toRow userID payload p, r, by simp [offeredRow, hx, hm], rfl, hko, ?_, rfl⟩
      simp only [Prod.mk.injEq] at hko
      rwa [← hko.1, ← hko.2]
    · exact .inl rfl
  · exact .inl (by rw [(pushItem_error he h).1])

/-- Every write is a step of every row, and a row it inserts starts at the version it
offered, raised to 1. -/
theorem writeStep_rowStep {db db' : Db} {w : Option (Kind × Row)} (h : WriteStep db w db') :
    RowStep ((db.tables k).find o u) ((db'.tables k).find o u) ∧
      ∀ r, (db.tables k).find o u = none → (db'.tables k).find o u = some r →
        ∃ n, w = some (k, n) ∧ n.key = (o, u) ∧ r.version = max n.version 1 := by
  cases h with
  -- a pushed item: the row unchanged, or the one LWW leaves
  | push d f t userID item ha =>
    rcases pushItem_find (k := k) (o := o) (u := u) ha with heq | ⟨n, r, hn, rfl, hk, hr, heq⟩
    · rw [heq]
      exact ⟨rowStep_refl _, fun r h0 h1 => by simp [h0] at h1⟩
    · rw [heq]
      refine ⟨lwwRow_rowStep hr, fun r' h0 h1 => ⟨n, by simp [hn], hk, ?_⟩⟩
      rw [h0] at hr
      cases h1
      cases hr
      rfl
  -- the version patch: a category's payload only
  | patch v o' u' db =>
    by_cases hk : k = .taskListCategory
    · subst hk
      simp only [Db.setTable_tables, if_true, Table.find_setPayload]
      refine ⟨rowStep_map (fun r => ?_) (fun r => ?_), fun r h0 h1 => by simp [h0] at h1⟩ <;>
        split <;> rfl
    · simp only [Db.setTable_tables, hk, if_false]
      exact ⟨rowStep_refl _, fun r h0 h1 => by simp [h0] at h1⟩

/-! ## One row, a run -/

/-- Over a run, a stored row stays, its timestamp never decreases, and its version grows by
the number of writes that strictly raised its timestamp. -/
theorem writeRun_version : ∀ {db : Db} {dbs : List Db}, WriteRun db dbs →
    ∀ {r₀ : Row}, (db.tables k).find o u = some r₀ →
      ∃ r, (((db :: dbs).getLast (List.cons_ne_nil _ _)).tables k).find o u = some r ∧
        r₀.updatedAtMs ≤ r.updatedAtMs ∧ r.version = r₀.version + newerWrites k o u (db :: dbs)
  | _, [], _, r₀, h₀ => ⟨r₀, h₀, le_refl _, by simp [newerWrites]⟩
  | db, b :: rest, hrun, r₀, h₀ => by
    obtain ⟨⟨w, hstep⟩, hrest⟩ := List.chain_cons.mp hrun
    have hrow := (writeStep_rowStep (k := k) (o := o) (u := u) hstep).1
    rw [h₀] at hrow
    rcases h₁ : (b.tables k).find o u with _ | r₁
    · rw [h₁] at hrow; exact hrow.elim
    rw [h₁] at hrow
    obtain ⟨hms, hiff, hinc⟩ := hrow
    obtain ⟨r, hr, hle, hv⟩ := writeRun_version hrest h₁
    refine ⟨r, by simpa using hr, hms.trans hle, ?_⟩
    simp only [newerWrites, h₀, h₁, stampRises] at hv ⊢
    by_cases hlt : r₀.updatedAtMs < r₁.updatedAtMs
    -- the first write raised the timestamp: one version more
    · rw [if_pos (by simpa using hlt)]
      have := hinc (hiff.mpr hlt)
      omega
    -- it did not: the version stays
    · rw [if_neg (by simpa using hlt)]
      have : r₁.version = r₀.version := not_not.mp (mt hiff.mp hlt)
      omega

/-! ## The runs of the code -/

theorem WriteRun.cons {db b : Db} {w : Option (Kind × Row)} {dbs : List Db} (h : WriteStep db w b)
    (hrun : WriteRun b dbs) : WriteRun db (b :: dbs) :=
  List.Chain.cons ⟨w, h⟩ hrun

/-- A loop that ends live is the run of its items' writes. -/
theorem pushLoop_writeRun {d : ItemKind} {f : Faults} {userID : String} :
    ∀ {t : Tx} {items : List Json}, (pushLoop d f userID t items).2.aborted = false →
      ∃ dbs, WriteRun t.db dbs ∧
        (t.db :: dbs).getLast (List.cons_ne_nil _ _) = (pushLoop d f userID t items).2.db
  | t, [], _ => ⟨[], List.Chain.nil, rfl⟩
  | t, item :: items, h => by
    rw [pushLoop_cons] at h ⊢
    obtain ⟨dbs, hrun, hlast⟩ := pushLoop_writeRun h
    exact ⟨_ :: dbs, hrun.cons (WriteStep.push d f t userID item (pushLoop_live h)),
      by rw [List.getLast_cons]; exact hlast⟩

/-- The store a push handler leaves is reached by the writes of the batch's items. -/
theorem pushHandler_writeRun (d : ItemKind) (f : Faults) (db : Db) (userID : String)
    (items : List Json) :
    ∃ dbs, WriteRun db dbs ∧
      (db :: dbs).getLast (List.cons_ne_nil _ _) = (pushHandler d f db userID items).2 := by
  rw [pushHandler_db]
  rcases h : batchCommit d f db userID items with _ | db'
  · exact ⟨[], List.Chain.nil, rfl⟩
  · obtain ⟨-, ha, -, rfl⟩ := batchCommit_eq_some.mp h
    exact pushLoop_writeRun ha

/-- The write half of a mutation that succeeds is two writes: its pushed item and the patch. -/
theorem mutationWrite_writeRun {f : Faults} {t : Tx} {userID : String} {uid : Uuid} {payload : Json}
    {probe : Option (Int × Int)} {opts : MutationOpts} {now : Int} {item : RestItem}
    (h : (mutationWrite f t userID uid payload probe opts now).1 = .ok item) :
    ∃ dbs, WriteRun t.db dbs ∧ (t.db :: dbs).getLast (List.cons_ne_nil _ _) =
      (mutationWrite f t userID uid payload probe opts now).2.db := by
  simp only [mutationWrite] at h ⊢
  set m := buildServerMutation payload (mutationTimestamp opts now probe) opts.setDeleted
  have hstep := WriteStep.push (rootItems .taskListCategory) f t userID m
  rcases hp : pushTaskListCategoryItem f t userID m with ⟨ack, t₁⟩
  rw [show pushItem (rootItems .taskListCategory) f t userID m = (ack, t₁) from hp] at hstep
  rw [pushTaskListCategoryItem] at hp
  simp only [pushTaskListCategoryItem, hp] at h ⊢
  by_cases he : ack.error = ""
  -- the item was accepted: its write, then the patch
  · simp only [he, ne_eq, not_true_eq_false, if_false] at h ⊢
    rcases hq : t₁.exec f (patchVersionStmt ack.version userID uid) with ⟨_ | x, t₂⟩
    · simp [hq] at h
    cases x
    obtain ⟨-, -, db₂, hdb₂, rfl⟩ := Tx.exec_eq_ok.mp hq
    simp only [patchVersionStmt, Except.ok.injEq, Prod.mk.injEq, true_and] at hdb₂
    subst hdb₂
    obtain ⟨-, -, -, -, -, -, -, -, -, -, hlive⟩ :=
      pushItem_ok (show (pushItem (rootItems .taskListCategory) f t userID m).1.error = "" by
        rw [hp]; exact he)
    rw [hp] at hlive
    exact ⟨[t₁.db, _], WriteRun.cons (hstep hlive) (WriteRun.cons (WriteStep.patch _ _ _ _)
      List.Chain.nil), rfl⟩
  · simp [he] at h

/-- The store a REST mutation leaves is reached by its writes: none, or its pushed item and
the patch. -/
theorem applyTaskListCategoryMutation_writeRun (f : Faults) (db : Db) (userID : String)
    (payload : Json) (opts : MutationOpts) (fresh : Uuid) (now : Int) :
    ∃ dbs, WriteRun db dbs ∧ (db :: dbs).getLast (List.cons_ne_nil _ _) =
      (applyTaskListCategoryMutation f db userID payload opts fresh now).2 := by
  have hnil : ∃ dbs, WriteRun db dbs ∧ (db :: dbs).getLast (List.cons_ne_nil _ _) = db :=
    ⟨[], List.Chain.nil, rfl⟩
  -- each way the mutation fails rolls back to `db`; a commit publishes the write half's store
  unfold applyTaskListCategoryMutation
  split
  · exact hnil
  have hdb := mutationProbe_db f (Tx.begin db) userID payload opts fresh
  rcases hp : mutationProbe f (Tx.begin db) userID payload opts fresh with
    ⟨_ | ⟨uid, payload', probe⟩, t⟩
  · exact hnil
  rw [hp] at hdb
  simp only
  rcases hw : mutationWrite f t userID uid payload' probe opts now with ⟨_ | item, t'⟩
  · exact hnil
  simp only
  rcases hc : t'.commit f with _ | db'
  · exact hnil
  obtain ⟨-, -, rfl⟩ := Tx.commit_eq_ok.mp hc
  have := mutationWrite_writeRun (show (mutationWrite f t userID uid payload' probe opts now).1 = .ok item
    by rw [hw])
  rw [hw, hdb] at this
  exact this

/-- The version counter over any run of writes of the push paths and the REST mutation.
Every write is a step of every row: an insert starts at the version it offered, raised to
1; a stored row stays, its timestamp never decreases, and its version changes exactly when
the timestamp strictly rises, and then by one. Over a run, a row's version therefore grows
by the number of writes that strictly raised its timestamp. Every push batch and every REST
mutation is such a run. -/
theorem writeRun_version_counter (k : Kind) (o : String) (u : Uuid) :
    (∀ db w db', WriteStep db w db' →
      RowStep ((db.tables k).find o u) ((db'.tables k).find o u) ∧
      ∀ r, (db.tables k).find o u = none → (db'.tables k).find o u = some r →
        ∃ n, w = some (k, n) ∧ n.key = (o, u) ∧ r.version = max n.version 1) ∧
    (∀ db dbs, WriteRun db dbs → ∀ r₀, (db.tables k).find o u = some r₀ →
      ∃ r, (((db :: dbs).getLast (List.cons_ne_nil _ _)).tables k).find o u = some r ∧
        r₀.updatedAtMs ≤ r.updatedAtMs ∧ r.version = r₀.version + newerWrites k o u (db :: dbs)) ∧
    (∀ d f db userID items, ∃ dbs, WriteRun db dbs ∧
      (db :: dbs).getLast (List.cons_ne_nil _ _) = (pushHandler d f db userID items).2) ∧
    ∀ f db userID payload opts fresh now, ∃ dbs, WriteRun db dbs ∧
      (db :: dbs).getLast (List.cons_ne_nil _ _) =
        (applyTaskListCategoryMutation f db userID payload opts fresh now).2 :=
  ⟨fun _ _ _ h => writeStep_rowStep h, fun _ _ h _ h₀ => writeRun_version h h₀,
    pushHandler_writeRun, applyTaskListCategoryMutation_writeRun⟩

/-! ## What a mutation answers -/

/-- The ack of an accepted item names the row its transaction now holds under the item's
key, with that row's version and timestamp. -/
theorem pushItem_ack {d : ItemKind} {f : Faults} {t : Tx} {userID : String} {item : Json}
    (h : (pushItem d f t userID item).1.error = "") :
    ∃ u r, ((pushItem d f t userID item).2.db.tables d.table).find userID u = some r ∧
      (pushItem d f t userID item).1 = ⟨u.toString, r.version, some (rfc3339 r.updatedAtMs), ""⟩ := by
  unfold pushItem checkItem at h ⊢
  rcases hx : d.extract item with e | ⟨ext, p⟩
  · simp only [hx] at h; exact absurd h (d.extract_error hx)
  rcases hv : validateParent f t userID ext p with ⟨_ | e, t₁⟩ <;> simp only [hx, hv] at h ⊢
  · obtain ⟨-, payload, r, -, -, hr, heq⟩ := writeItem_ok _ _ _ _ _ _ _ h
    have hk : r.key = (userID, ext.uid) := @lwwRow_find_key _ (ext.toRow userID payload p) r hr
    rw [heq]
    exact ⟨ext.uid, r, by simp [Db.lwwPut, hk], rfl⟩
  · exact absurd h (validateParent_error f t userID ext p (e := e) (by rw [hv]))

/-- The write half of a mutation that succeeds answers the counters of a row its transaction
then holds: the patch of `sync.version` changes the payload only. -/
theorem mutationWrite_answer {f : Faults} {t : Tx} {userID : String} {uid : Uuid}
    {payload : Json} {probe : Option (Int × Int)} {opts : MutationOpts} {now : Int}
    {item : RestItem} (h : (mutationWrite f t userID uid payload probe opts now).1 = .ok item) :
    ∃ u r, ((mutationWrite f t userID uid payload probe opts now).2.db.tables
        .taskListCategory).find userID u = some r ∧
      item.uid = u.toString ∧ item.version = r.version ∧
      item.updatedAt = some (rfc3339 r.updatedAtMs) := by
  simp only [mutationWrite] at h ⊢
  set m := buildServerMutation payload (mutationTimestamp opts now probe) opts.setDeleted
  rcases hp : pushItem (rootItems .taskListCategory) f t userID m with ⟨ack, t₁⟩
  simp only [pushTaskListCategoryItem, hp] at h ⊢
  -- the item must have been accepted; its ack carries the counters of the row it left
  by_cases he : ack.error = ""
  swap
  · simp [he] at h
  obtain ⟨u, r, hfind, hack⟩ := pushItem_ack (show (pushItem _ f t userID m).1.error = "" by
    rw [hp]; exact he)
  rw [hp] at hfind hack
  dsimp only [rootItems] at hfind
  subst hack
  simp only [he, ne_eq, not_true_eq_false, if_false] at h ⊢
  -- the patch went through, and changed the payload only
  rcases hq : t₁.exec f (patchVersionStmt r.version userID uid) with ⟨_ | x, t₂⟩
  · simp [hq] at h
  obtain ⟨-, -, db₂, hdb₂, rfl⟩ := Tx.exec_eq_ok.mp hq
  simp only [patchVersionStmt, Except.ok.injEq, Prod.mk.injEq, true_and] at hdb₂
  simp only [hq, Except.ok.injEq] at h
  subst hdb₂ h
  refine ⟨u, ?_⟩
  rw [Db.setTable_tables, if_pos rfl, Table.find_setPayload, hfind, Option.map_some']
  exact ⟨_, rfl, rfl, by split_ifs <;> rfl, by split_ifs <;> rfl⟩

/-! ## Mutations on the clock -/

/-- An accepted item was extracted and marshalled, its transaction now holds the row LWW
leaves, and its ack carries that row's counters. -/
theorem pushItem_written {d : ItemKind} {f : Faults} {t : Tx} {userID : String} {item : Json}
    (h : (pushItem d f t userID item).1.error = "") :
    ∃ ext p payload r, d.extract item = .ok (ext, p) ∧ jsonMarshal item = .ok payload ∧
      lwwRow ((t.db.tables d.table).find userID ext.uid) (ext.toRow userID payload p) = .ok r ∧
      (pushItem d f t userID item).1 = ⟨ext.uid.toString, r.version, some (rfc3339 r.updatedAtMs), ""⟩ ∧
      (pushItem d f t userID item).2.db = t.db.lwwPut d.table r := by
  unfold pushItem checkItem at h ⊢
  rcases hx : d.extract item with e | ⟨ext, p⟩
  · simp only [hx] at h; exact absurd h (d.extract_error hx)
  have hdb := validateParent_db f t userID ext p
  rcases hv : validateParent f t userID ext p with ⟨_ | e, t₁⟩ <;> simp only [hx, hv] at h hdb ⊢
  -- the checks passed and the write was accepted
  · obtain ⟨-, payload, r, hm, -, hr, heq⟩ := writeItem_ok _ _ _ _ _ _ _ h
    rw [hdb] at hr heq
    exact ⟨ext, p, payload, r, rfl, hm, hr, by rw [heq], by rw [heq]⟩
  · exact absurd h (validateParent_error f t userID ext p (e := e) (by rw [hv]))

/-- A stamped payload pushed as a category, when its stamp is newer than the stored row's and
the push accepts it: the upsert writes it under the payload's uid, at the version the counter
gives it, with the stamp as its timestamp and, for a delete, as its tombstone. -/
theorem pushTaskListCategoryItem_stamped {f : Faults} {t t₁ : Tx} {userID : String} {uid : Uuid}
    {payload : Json} {ts : Int} {setDeleted : Bool} {ack : PushAck}
    (huid : ∀ u, getUuid payload "uid" = .ok u → uid = u)
    (hnewer : ∀ r₀ ∈ (t.db.tables .taskListCategory).find userID uid, r₀.updatedAtMs < ts)
    (hp : pushTaskListCategoryItem f t userID (buildServerMutation payload ts setDeleted) = (ack, t₁))
    (he : ack.error = "") :
    ∃ v, (∀ r₀ ∈ (t.db.tables .taskListCategory).find userID uid, v = r₀.version + 1) ∧
      ack = ⟨uid.toString, v, some (rfc3339 ts), ""⟩ ∧
      t₁.db = t.db.lwwPut .taskListCategory ⟨uid, userID, ts,
        if setDeleted then some ts else getInt (syncOf payload) "deletedAtMs", v,
        buildServerMutation payload ts setDeleted, .none⟩ := by
  -- the accepted item's header is the stamped payload's
  obtain ⟨ext, p, payload', r, hx, hm, hr, hack, hdb⟩ :=
    pushItem_written (show (pushItem (rootItems .taskListCategory) f t userID _).1.error = "" by
      rw [← pushTaskListCategoryItem, hp]; exact he)
  rw [← pushTaskListCategoryItem, hp] at hack hdb
  dsimp only at hack hdb
  rcases hc : extractCommon (buildServerMutation payload ts setDeleted) with e | ext' <;>
    simp only [rootItems, extractRoot, hc, Except.map, reduceCtorEq, Except.ok.injEq,
      Prod.mk.injEq] at hx
  obtain ⟨rfl, rfl⟩ := hx
  obtain ⟨hu, hms, hdms⟩ := extractCommon_buildServerMutation hc
  obtain rfl := huid _ hu
  -- the stamp is newer, so LWW takes the offered row at the next version
  obtain rfl := jsonMarshal_ok hm
  obtain ⟨v, rfl, hv⟩ := lwwRow_of_newer hr fun r₀ h₀ => (hnewer r₀ h₀).trans_eq hms.symm
  refine ⟨v, hv, ?_, ?_⟩ <;> simp only [hack, hdb, Extracted.toRow, hms, hdms, rootItems]

/-- The write half of a mutation on the clock (no `ForceTimestampMs`). `EnsureMonotonicTimestamp`
passes the stored row's timestamp, so the upsert writes the stamped payload: at the next
version over a stored row, with the stamp as its tombstone for a delete. The patch then writes
that version into the payload's `sync` block, and the answer is the row so patched. -/
theorem mutationWrite_on_clock {f : Faults} {t : Tx} {userID : String} {uid : Uuid}
    {payload : Json} {opts : MutationOpts} {now : Int} {item : RestItem}
    (huid : ∀ u, getUuid payload "uid" = .ok u → uid = u)
    (hforce : opts.forceTimestampMs = none)
    (h : (mutationWrite f t userID uid payload (((t.db.tables .taskListCategory).find userID uid).map
      fun r => (r.updatedAtMs, r.version)) opts now).1 = .ok item) :
    ∃ (new : Row) (v : Int), (∀ r₀ ∈ (t.db.tables .taskListCategory).find userID uid,
        v = r₀.version + 1) ∧ new.uid = uid ∧
      new.deletedAtMs =
        (if opts.setDeleted then some new.updatedAtMs else getInt (syncOf payload) "deletedAtMs") ∧
      ((mutationWrite f t userID uid payload (((t.db.tables .taskListCategory).find userID uid).map
        fun r => (r.updatedAtMs, r.version)) opts now).2.db.tables .taskListCategory).find userID
          uid = some { new with version := v, payloadJson := setSyncVersion new.payloadJson v } ∧
      item = ⟨uid.toString, v, some (rfc3339 new.updatedAtMs),
        if opts.setDeleted then some (rfc3339 new.updatedAtMs) else none,
        setSyncVersion new.payloadJson v⟩ := by
  simp only [mutationWrite] at h ⊢
  set ts := mutationTimestamp opts now (((t.db.tables .taskListCategory).find userID uid).map
    fun r => (r.updatedAtMs, r.version)) with hts_def
  -- on the clock the stamp is newer than the stored row
  have hts : ∀ r₀ ∈ (t.db.tables .taskListCategory).find userID uid, r₀.updatedAtMs < ts := by
    intro r₀ h₀
    simp only [hts_def, Option.mem_def.mp h₀, Option.map_some', mutationTimestamp, hforce,
      ensureMonotonicTimestamp]
    omega
  rcases hp : pushTaskListCategoryItem f t userID (buildServerMutation payload ts opts.setDeleted)
    with ⟨ack, t₁⟩
  simp only [hp] at h ⊢
  by_cases he : ack.error = ""
  swap
  · simp [he] at h
  -- the upsert writes the stamped row, then the patch writes its version into the payload
  obtain ⟨v, hv, rfl, hdb⟩ := pushTaskListCategoryItem_stamped huid hts hp he
  simp only [ne_eq, not_true_eq_false, if_false] at h ⊢
  rcases hq : t₁.exec f (patchVersionStmt v userID uid) with ⟨_ | x, t₂⟩
  · simp [hq] at h
  obtain ⟨-, -, db₂, hdb₂, rfl⟩ := Tx.exec_eq_ok.mp hq
  simp only [patchVersionStmt, Except.ok.injEq, Prod.mk.injEq, true_and] at hdb₂
  simp only [hq, Except.ok.injEq] at h
  subst hdb₂ h
  refine ⟨⟨uid, userID, ts, if opts.setDeleted then some ts else getInt (syncOf payload) "deletedAtMs",
    v, buildServerMutation payload ts opts.setDeleted, .none⟩, v, hv, rfl, rfl, ?_, rfl⟩
  rw [Db.setTable_tables, if_pos rfl, Table.find_setPayload, hdb, Db.find_lwwPut, if_pos ⟨rfl, rfl⟩]
  simp [Row.key]

/-- A committed mutation: its probe let it through on the store it began on, and the store it
leaves is its write half's. -/
theorem applyTaskListCategoryMutation_eq_ok {f : Faults} {db : Db} {userID : String}
    {payload : Json} {opts : MutationOpts} {fresh : Uuid} {now : Int} {item : RestItem}
    (h : (applyTaskListCategoryMutation f db userID payload opts fresh now).1 = .ok item) :
    ∃ t : Tx, t.db = db ∧
      (mutationWrite f t userID (mutationUid payload fresh).1 (mutationUid payload fresh).2
        (((t.db.tables .taskListCategory).find userID (mutationUid payload fresh).1).map
          fun r => (r.updatedAtMs, r.version)) opts now).1 = .ok item ∧
      (applyTaskListCategoryMutation f db userID payload opts fresh now).2 =
        (mutationWrite f t userID (mutationUid payload fresh).1 (mutationUid payload fresh).2
          (((t.db.tables .taskListCategory).find userID (mutationUid payload fresh).1).map
            fun r => (r.updatedAtMs, r.version)) opts now).2.db := by
  -- past `BEGIN`, the probe and the write half answered and `COMMIT` went through
  unfold applyTaskListCategoryMutation at h ⊢
  split at h
  · cases h
  rename_i hf₀
  rw [if_neg hf₀]
  rcases hp : mutationProbe f (Tx.begin db) userID payload opts fresh with
    ⟨_ | ⟨uid, payload', probe⟩, t⟩ <;> simp only [hp] at h ⊢
  · cases h
  obtain ⟨rfl, rfl, ht, rfl⟩ := mutationProbe_ok hp
  refine ⟨t, ht, ?_⟩
  rw [← ht] at h ⊢
  rcases hw : mutationWrite f t userID _ _ _ opts now with ⟨_ | item', t'⟩ <;> simp only [hw] at h ⊢
  · cases h
  rcases hc : t'.commit f with _ | db' <;> simp only [hc, Except.ok.injEq, reduceCtorEq] at h ⊢
  obtain ⟨-, -, rfl⟩ := Tx.commit_eq_ok.mp hc
  exact ⟨h, rfl⟩

/-- A REST mutation of a stored category on the clock that succeeds leaves the category at
the next version. -/
theorem applyTaskListCategoryMutation_version {f : Faults} {db : Db} {userID : String}
    {payload : Json} {opts : MutationOpts} {fresh : Uuid} {now : Int} {r₀ : Row}
    (hfind : (db.tables .taskListCategory).find userID (mutationUid payload fresh).1 = some r₀)
    (hforce : opts.forceTimestampMs = none)
    (h : (applyTaskListCategoryMutation f db userID payload opts fresh now).1.isOk = true) :
    ∃ r, ((applyTaskListCategoryMutation f db userID payload opts fresh now).2.tables
        .taskListCategory).find userID (mutationUid payload fresh).1 = some r ∧
      r.version = r₀.version + 1 := by
  rcases hx : (applyTaskListCategoryMutation f db userID payload opts fresh now).1 with e | item
  · rw [hx] at h; cases h
  obtain ⟨t, ht, hw, hdb⟩ := applyTaskListCategoryMutation_eq_ok hx
  obtain ⟨new, v, hv, -, -, hfind', -⟩ :=
    mutationWrite_on_clock (fun _ hu => getUuid_mutationUid payload fresh hu) hforce hw
  rw [hdb]
  exact ⟨_, hfind', hv r₀ (by rw [ht]; exact hfind)⟩

/-- Optimistic concurrency over two REST mutations of one category: once a mutation on the
clock has succeeded on the stored row at version `v`, a mutation of the same category that
enforces the expected version `v` is refused with `VersionMismatchError{v, v + 1}`, or fails
on the database first, and leaves the store as the first one left it. -/
theorem applyTaskListCategoryMutation_refuses_stale (f₁ f₂ : Faults) (db : Db) (userID : String)
    (payload₁ payload₂ : Json) (opts₁ opts₂ : MutationOpts) (fresh₁ fresh₂ : Uuid)
    (now₁ now₂ v : Int)
    (hver : ((db.tables .taskListCategory).find userID (mutationUid payload₁ fresh₁).1).map
      Row.version = some v)
    (hforce : opts₁.forceTimestampMs = none)
    (hok : (applyTaskListCategoryMutation f₁ db userID payload₁ opts₁ fresh₁ now₁).1.isOk = true)
    (huid : (mutationUid payload₂ fresh₂).1 = (mutationUid payload₁ fresh₁).1)
    (henf : opts₂.enforceVersion = true) (hexp : opts₂.expectedVersion = v) :
    applyTaskListCategoryMutation f₂
        (applyTaskListCategoryMutation f₁ db userID payload₁ opts₁ fresh₁ now₁).2
        userID payload₂ opts₂ fresh₂ now₂ =
      (.error (if f₂ 0 || f₂ 1 then .database faultError else .versionMismatch v (v + 1)),
        (applyTaskListCategoryMutation f₁ db userID payload₁ opts₁ fresh₁ now₁).2) := by
  obtain ⟨r₀, hfind, rfl⟩ := Option.map_eq_some'.mp hver
  obtain ⟨r, hr, hv⟩ := applyTaskListCategoryMutation_version hfind hforce hok
  set db₁ := (applyTaskListCategoryMutation f₁ db userID payload₁ opts₁ fresh₁ now₁).2
  -- `BEGIN` and the probe go through: the probe reads version `v + 1`
  unfold applyTaskListCategoryMutation
  cases h0 : f₂ 0
  · cases h1 : f₂ 1
    · simp [mutationProbe, Tx.exec, Tx.begin, probeStmt, h0, h1, huid, hr, hv, henf, hexp]
    · simp [mutationProbe, Tx.exec, Tx.begin, h0, h1]
  · simp [h0]

/-- Two clients read a category at version 1; the first updates it, and the second's update,
still expecting version 1, is refused. -/
theorem refuses_stale_second_writer :
    let opts : MutationOpts := ⟨false, 0, none, false⟩
    let cat : Json := .str "00000000-0000-0000-0000-00000000000a"
    let db := (applyTaskListCategoryMutation Faults.none Db.empty "u"
      (.obj [("uid", cat), ("title", .str "a")]) opts Uuid.nil 1000).2
    let db₁ := (applyTaskListCategoryMutation Faults.none db "u"
      (.obj [("uid", cat), ("title", .str "b")]) opts Uuid.nil 2000).2
    applyTaskListCategoryMutation Faults.none db₁ "u" (.obj [("uid", cat), ("title", .str "c")])
        ⟨true, 1, none, false⟩ Uuid.nil 2000 =
      (.error (if Faults.none 0 || Faults.none 1 then .database faultError
        else .versionMismatch 1 (1 + 1)), db₁) :=
  applyTaskListCategoryMutation_refuses_stale _ _ _ _ _ _ _ _ _ _ _ _ 1 (by decide) rfl (by decide)
    (by decide) rfl rfl

/-! ## The top of the counter -/

/-- A row at the top `INT` version refuses every strictly newer write that the extractor,
the parent check and the version parameter let through: the increment overflows and aborts
the transaction. -/
theorem pushItem_saturated {d : ItemKind} {f : Faults} {t : Tx} {userID : String} {item : Json}
    {ext : Extracted} {p : ParentRef} {payload : Json} {old : Row}
    (hf : ∀ n, f n = false) (ht : t.aborted = false) (hx : d.extract item = .ok (ext, p))
    (hp : (validateParent f t userID ext p).1 = none) (hm : jsonMarshal item = .ok payload)
    (hv : fitsInt4 ext.version = true)
    (hold : (t.db.tables d.table).find userID ext.uid = some old) (hmax : old.version = int4Max)
    (hnew : old.updatedAtMs < ext.updatedAtMs) :
    (pushItem d f t userID item).1.error = outOfRangeError ∧
      (pushItem d f t userID item).2.aborted = true := by
  have hdb := validateParent_db f t userID ext p
  have hl := validateParent_nofault f t userID ext hf ht p
  rcases hvp : validateParent f t userID ext p with ⟨_ | e, t₁⟩
  swap
  · simp [hvp] at hp
  rw [hvp] at hdb hl
  dsimp only at hdb hl
  have hlww : lwwRow ((t₁.db.tables d.table).find (ext.toRow userID payload p).ownerId
      (ext.toRow userID payload p).uid) (ext.toRow userID payload p) = .error outOfRangeError := by
    simp [hdb, hold, lwwRow, Extracted.toRow, hnew, hmax]
  simp [pushItem, checkItem, hx, hvp, writeItem, hm, hv, Tx.exec, hl, hf, upsertStmt, Table.upsert,
    hlww, Except.map, Extracted.ackError]

/-- The header of a pushed `syncItem`: its version is clamped to at least 1. -/
theorem extractRoot_syncItem {a : String} {u : Uuid} (h : parseUuid a = some u) (ms v : Int) :
    extractRoot (syncItem a ms v) = .ok (⟨u, ms, none, max v 1⟩, .none) := by
  simp [extractRoot, extractCommon, syncItem, getUuid, getString, Json.get?, List.lookup_cons, h,
    syncOf, getInt, Except.map, bind, Except.bind, pure, Except.pure]

/-- A category pushed at the top `INT` version is acknowledged at it. After that, every
strictly newer write of the category whose version the parameter admits is refused with the
overflow error, and the batch that carries it rolls back, leaving the store as it was. -/
theorem pushTaskListCategories_saturated :
    match pushTaskListCategories Faults.none Db.empty "u"
        [syncItem "00000000-0000-0000-0000-00000000000a" 1 int4Max] with
    | (r, db₁) =>
      r = (200, [⟨"00000000-0000-0000-0000-00000000000a", int4Max, some (rfc3339 1), ""⟩]) ∧
      ∀ ms v, 1 < ms → v ≤ int4Max →
        (pushTaskListCategoryItem Faults.none (Tx.begin db₁) "u"
            (syncItem "00000000-0000-0000-0000-00000000000a" ms v)).1.error = outOfRangeError ∧
        pushTaskListCategories Faults.none db₁ "u"
            [syncItem "00000000-0000-0000-0000-00000000000a" ms v] =
          ((500, batchError "commit failed"), db₁) := by
  generalize hp : pushTaskListCategories Faults.none Db.empty "u"
    [syncItem "00000000-0000-0000-0000-00000000000a" 1 int4Max] = res
  obtain ⟨r, db₁⟩ := res
  have hr := congrArg Prod.fst hp
  have hdb := congrArg Prod.snd hp
  dsimp only at hr hdb
  have hfind : ((db₁.tables .taskListCategory).find "u" ⟨10, by decide⟩).map
      (fun r => (r.version, r.updatedAtMs)) = some (int4Max, 1) := by
    rw [← hdb]; decide
  -- the first push, by evaluation; then any newer write meets the stored top version
  refine ⟨by rw [← hr]; decide, fun ms v hms hv => ?_⟩
  obtain ⟨old, hold, hvo⟩ := Option.map_eq_some'.mp hfind
  simp only [Prod.mk.injEq] at hvo
  have hs := @pushItem_saturated (rootItems .taskListCategory) Faults.none (Tx.begin db₁) "u"
    (syncItem "00000000-0000-0000-0000-00000000000a" ms v) ⟨⟨10, by decide⟩, ms, none, max v 1⟩ .none
    _ old (fun _ => rfl) rfl
    (@extractRoot_syncItem "00000000-0000-0000-0000-00000000000a" ⟨10, by decide⟩ (by decide) ms v)
    rfl rfl
    (by simp [fitsInt4, int4Max] at hv ⊢; omega)
    hold hvo.1 (by rw [hvo.2]; exact hms)
  -- the aborted transaction's `COMMIT` rolls back
  refine ⟨hs.1, ?_⟩
  simp only [pushTaskListCategories, pushHandler, pushLoop_cons, pushLoop_nil, Tx.commit,
    hs.2, Faults.none, Bool.false_eq_true, if_true, if_false]

end Toolbridge
