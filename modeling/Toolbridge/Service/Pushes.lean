import Toolbridge.Service.Batch

/-!
# Push batches in flight

Push batches of many devices run at once (§5), each in its own read-committed transaction.
This module models their interleavings statement by statement.

A batch in flight (`PushReq`) holds what its transaction has done so far (`OpenBatch`):
whether a failed statement aborted it, the round trips made, the rows its upserts wrote, the
acks so far and the items still to push. After its `BEGIN` it takes one step per half of an
item and one for its `COMMIT`:

* the check half, `checkItem`: the header and the parent probe, which reads the parent's
  table as committed when the probe runs;
* the write half, `writeItem`: the upsert and the read-back, on the committed store with the
  batch's own rows in place (`OpenBatch.tx`). The upsert locks its row until the batch ends,
  so an upsert whose row another open batch has written waits: the step does nothing, unless
  its round trip fails, which is how a deadlock victim or a lock timeout ends;
* `COMMIT` publishes the batch's rows over the store as committed then, or rolls back.

A lock is recorded when the upsert is acknowledged; one whose read-back failed holds a lock the
model leaves out, which only adds interleavings.

A batch stepped alone runs `pushHandler` (`PushReq.run_alone`), so a schedule that runs batch
after batch commits what the handlers commit one after the other (`Pushes.run_serial`).
-/

namespace Toolbridge

/-! ## The model -/

/-- The committed store `db` with the rows a transaction wrote into table `k` in place. -/
def Db.overlay (db : Db) (k : Kind) (rows : List Row) : Db :=
  rows.foldl (fun db r => db.lwwPut k r) db

/-- A push transaction between two statements: whether a failed statement aborted it, the
round trips so far, the rows its upserts wrote (each locked to the end of the transaction),
the acks so far, the item whose checks passed and whose write is next, and the items after
it. -/
structure OpenBatch where
  aborted : Bool
  stmt : Nat
  rows : List Row
  acks : List PushAck
  checked : Option (Json × Extracted × ParentRef)
  rest : List Json

namespace OpenBatch

/-- The transaction as its next statement finds it on the committed store `db`. -/
def tx (o : OpenBatch) (db : Db) (k : Kind) : Tx := ⟨db.overlay k o.rows, o.aborted, o.stmt⟩

/-- Whether the transaction holds the row lock on `key`. -/
def holds (o : OpenBatch) (key : String × Uuid) : Bool := o.rows.any fun r => decide (r.key = key)

/-- Whether the write half of the checked item sends its upsert now: the transaction is live,
the round trip goes through, and the payload and the version can be bound. -/
def sendsUpsert (o : OpenBatch) (f : Faults) (item : Json) (ext : Extracted) : Bool :=
  !o.aborted && !f o.stmt && (jsonMarshal item).isOk && fitsInt4 ext.version

end OpenBatch

/-- Where a batch stands: not begun, open, or answered with its status and acks. -/
inductive BatchStage where
  | ready
  | running (o : OpenBatch)
  | finished (answer : Nat × List PushAck)

/-- One push batch in flight: the push path, the faults of its round trips, the caller, the
items, and its stage. -/
structure PushReq where
  d : ItemKind
  f : Faults
  userID : String
  items : List Json
  stage : BatchStage

namespace PushReq

/-- Whether the batch is open and holds the lock on `key` in table `k`. -/
def locks (q : PushReq) (k : Kind) (key : String × Uuid) : Bool :=
  match q.stage with
  | .running o => decide (q.d.table = k) && o.holds key
  | _ => false

/-- The open batch after the check half of `item`. -/
def checkStep (q : PushReq) (db : Db) (o : OpenBatch) (item : Json) (rest : List Json) :
    OpenBatch :=
  match checkItem q.d q.f (o.tx db q.d.table) q.userID item with
  | (.error ack, t) => { o with aborted := t.aborted, stmt := t.stmt, acks := o.acks ++ [ack], rest }
  | (.ok (ext, p), t) => { o with aborted := t.aborted, stmt := t.stmt, checked := some (item, ext, p), rest }

/-- The open batch after the write half of the checked `item`: an acknowledged upsert adds
the row it left to the batch's rows. -/
def writeStep (q : PushReq) (db : Db) (o : OpenBatch) (item : Json) (ext : Extracted)
    (p : ParentRef) : OpenBatch :=
  match writeItem q.d.table q.f (o.tx db q.d.table) q.userID item ext p with
  | (ack, t) =>
    { o with aborted := t.aborted, stmt := t.stmt, acks := o.acks ++ [ack], checked := none,
             rows := if ack.error = "" then o.rows ++ ((t.db.tables q.d.table).find q.userID ext.uid).toList
               else o.rows }

/-- One step of a batch on the committed store `db`, `busy` telling which rows other open
batches have locked. -/
def step (q : PushReq) (db : Db) (busy : Kind → String × Uuid → Bool) : PushReq × Db :=
  match q.stage with
  | .ready =>
    if q.f 0 then ({ q with stage := .finished (500, batchError "transaction error") }, db)
    else ({ q with stage := .running ⟨false, 1, [], [], none, q.items⟩ }, db)
  | .running o =>
    match o.checked, o.rest with
    | some (item, ext, p), _ =>
      if o.sendsUpsert q.f item ext && busy q.d.table (q.userID, ext.uid) then (q, db)
      else ({ q with stage := .running (q.writeStep db o item ext p) }, db)
    | none, item :: rest => ({ q with stage := .running (q.checkStep db o item rest) }, db)
    | none, [] =>
      match (o.tx db q.d.table).commit q.f with
      | .error _ => ({ q with stage := .finished (500, batchError "commit failed") }, db)
      | .ok db' => ({ q with stage := .finished (200, o.acks) }, db')
  | .finished _ => (q, db)

end PushReq

/-- The batches in flight and the committed store. -/
structure Pushes where
  reqs : List PushReq
  db : Db

namespace Pushes

/-- Whether a batch other than the `i`-th holds the lock on `key` in table `k`. -/
def busy (s : Pushes) (i : Nat) (k : Kind) (key : String × Uuid) : Bool :=
  (s.reqs.eraseIdx i).any fun q => q.locks k key

/-- Step the `i`-th batch. -/
def step (s : Pushes) (i : Nat) : Pushes :=
  match s.reqs[i]? with
  | none => s
  | some q => ⟨s.reqs.set i (q.step s.db (s.busy i)).1, (q.step s.db (s.busy i)).2⟩

/-- An interleaving: the batches stepped in the order of the schedule. -/
def run (s : Pushes) (schedule : List Nat) : Pushes := schedule.foldl step s

end Pushes

/-! ## The store a batch sees -/

namespace Db

@[simp] theorem overlay_nil (db : Db) (k : Kind) : db.overlay k [] = db := rfl

theorem overlay_snoc (db : Db) (k : Kind) (rows : List Row) (r : Row) :
    db.overlay k (rows ++ [r]) = (db.overlay k rows).lwwPut k r := List.foldl_append ..

/-- A batch's rows are in its own table only. -/
theorem overlay_tables_of_ne (db : Db) {k k' : Kind} (rows : List Row) (h : k' ≠ k) :
    (db.overlay k rows).tables k' = db.tables k' := by
  induction rows using List.reverseRecOn with
  | nil => rfl
  | append_singleton rows r ih => rw [overlay_snoc, Db.lwwPut, setTable_tables, if_neg h, ih]

/-- Under a key it wrote, a batch sees its own last row; under any other, the committed one. -/
theorem find_overlay (db : Db) (k : Kind) (rows : List Row) (o : String) (u : Uuid) :
    ((db.overlay k rows).tables k).find o u =
      ((rows.filter fun r => decide (r.key = (o, u))).getLast?).or ((db.tables k).find o u) := by
  induction rows using List.reverseRecOn with
  | nil => simp
  | append_singleton rows r ih =>
    rw [overlay_snoc, find_lwwPut, List.filter_append]
    by_cases hr : r.key = (o, u) <;> simp [hr, ih]

end Db

/-! ## Stepping one batch -/

namespace PushReq

variable (q : PushReq) (db : Db) (busy : Kind → String × Uuid → Bool) {o : OpenBatch}

theorem step_ready (h : q.stage = .ready) :
    q.step db busy = if q.f 0 then ({ q with stage := .finished (500, batchError "transaction error") }, db)
      else ({ q with stage := .running ⟨false, 1, [], [], none, q.items⟩ }, db) := by
  simp [step, h]

theorem step_check {item : Json} {rest : List Json} (h : q.stage = .running o) (hc : o.checked = none)
    (hr : o.rest = item :: rest) :
    q.step db busy = ({ q with stage := .running (q.checkStep db o item rest) }, db) := by
  simp [step, h, hc, hr]

theorem step_write {item : Json} {ext : Extracted} {p : ParentRef} (h : q.stage = .running o)
    (hc : o.checked = some (item, ext, p)) (hb : (o.sendsUpsert q.f item ext && busy q.d.table (q.userID, ext.uid)) = false) :
    q.step db busy = ({ q with stage := .running (q.writeStep db o item ext p) }, db) := by
  simp [step, h, hc, hb]

theorem step_wait {item : Json} {ext : Extracted} {p : ParentRef} (h : q.stage = .running o)
    (hc : o.checked = some (item, ext, p)) (hb : (o.sendsUpsert q.f item ext && busy q.d.table (q.userID, ext.uid)) = true) :
    q.step db busy = (q, db) := by
  simp [step, h, hc, hb]

theorem step_commit (h : q.stage = .running o) (hc : o.checked = none) (hr : o.rest = []) :
    q.step db busy = match (o.tx db q.d.table).commit q.f with
      | .error _ => ({ q with stage := .finished (500, batchError "commit failed") }, db)
      | .ok db' => ({ q with stage := .finished (200, o.acks) }, db') := by
  simp [step, h, hc, hr]

theorem step_finished {answer : Nat × List PushAck} (h : q.stage = .finished answer) :
    q.step db busy = (q, db) := by
  simp [step, h]

/-- The cases of one step, as the definition takes them: `BEGIN` fails or opens the
transaction; the check half; the write half when it does not wait; `COMMIT` fails or publishes;
and the steps that change nothing (a waiting write, an answered batch). -/
theorem step_cases {motive : PushReq × Db → Prop}
    (begin_fail : q.stage = .ready → q.f 0 = true →
      motive ({ q with stage := .finished (500, batchError "transaction error") }, db))
    (begin_ok : q.stage = .ready → q.f 0 = false →
      motive ({ q with stage := .running ⟨false, 1, [], [], none, q.items⟩ }, db))
    (check : ∀ o item rest, q.stage = .running o → o.checked = none → o.rest = item :: rest →
      motive ({ q with stage := .running (q.checkStep db o item rest) }, db))
    (write : ∀ o item ext p, q.stage = .running o → o.checked = some (item, ext, p) →
      (o.sendsUpsert q.f item ext && busy q.d.table (q.userID, ext.uid)) = false →
      motive ({ q with stage := .running (q.writeStep db o item ext p) }, db))
    (commit_fail : ∀ o e, q.stage = .running o → o.checked = none → o.rest = [] →
      (o.tx db q.d.table).commit q.f = .error e →
      motive ({ q with stage := .finished (500, batchError "commit failed") }, db))
    (commit_ok : ∀ o db', q.stage = .running o → o.checked = none → o.rest = [] →
      (o.tx db q.d.table).commit q.f = .ok db' → motive ({ q with stage := .finished (200, o.acks) }, db'))
    (same : motive (q, db)) :
    motive (q.step db busy) := by
  rcases hs : q.stage with _ | o | answer
  -- not begun: `BEGIN`
  · rw [step_ready _ _ _ hs]
    cases hf : q.f 0
    · exact begin_ok hs hf
    · exact begin_fail hs hf
  -- open: `COMMIT` when no item is left, else the next half of an item
  · rcases hc : o.checked with _ | ⟨item, ext, p⟩
    · rcases hr : o.rest with _ | ⟨item, rest⟩
      · rw [step_commit _ _ _ hs hc hr]
        rcases hco : (o.tx db q.d.table).commit q.f with e | db'
        · exact commit_fail o e hs hc hr hco
        · exact commit_ok o db' hs hc hr hco
      · rw [step_check _ _ _ hs hc hr]; exact check o item rest hs hc hr
    · cases hb : (o.sendsUpsert q.f item ext && busy q.d.table (q.userID, ext.uid))
      · rw [step_write _ _ _ hs hc hb]; exact write o item ext p hs hc hb
      · rw [step_wait _ _ _ hs hc hb]; exact same
  -- answered: nothing moves
  · rw [step_finished _ _ _ hs]; exact same

end PushReq

/-! ## What an open batch has done -/

/-- An ack added after `acks` answers the item that follows the ones `acks` answers. -/
theorem zip_snoc {α β : Type} : ∀ {l : List α} {acks : List β} {x : α} {r : List α} (c : β),
    l.drop acks.length = x :: r → l.zip (acks ++ [c]) = l.zip acks ++ [(x, c)]
  | [], _, _, _, _, h => by simp at h
  | a :: l, [], x, r, c, h => by
    obtain ⟨rfl, -⟩ : a = x ∧ l = r := by simpa using h
    simp
  | a :: l, b :: acks, x, r, c, h => by
    simp only [List.cons_append, List.zip_cons_cons, zip_snoc c (by simpa using h)]

theorem drop_succ_of_drop_eq {α : Type} {l rest : List α} {n : Nat} {x : α}
    (h : l.drop n = x :: rest) : l.drop (n + 1) = rest := by
  rw [← List.drop_drop, h]; rfl

namespace PushReq

/-- An open batch's acks answer its first items in order, the checked item comes next with the
header it carries, and the items after it are still to push. -/
def Tracks (q : PushReq) : Prop :=
  ∀ o, q.stage = .running o →
    q.items.drop o.acks.length = (o.checked.map (·.1)).toList ++ o.rest ∧
      ∀ item ext p, o.checked = some (item, ext, p) → q.d.extract item = .ok (ext, p)

/-- Every step keeps it. -/
theorem tracks_step {q : PushReq} (h : q.Tracks) (db : Db) (busy : Kind → String × Uuid → Bool) :
    (q.step db busy).1.Tracks := by
  refine step_cases q db busy (motive := fun qd => qd.1.Tracks) (fun _ _ o' ho => by cases ho)
    (fun _ _ o' ho => ?_) (fun o item rest hs hc hr o' ho => ?_) (fun o item ext p hs hc _ o' ho => ?_)
    (fun _ _ _ _ _ _ o' ho => by cases ho) (fun _ _ _ _ _ _ o' ho => by cases ho) h
  -- the transaction opens on the whole batch
  · cases ho; exact ⟨rfl, fun _ _ _ h => by cases h⟩
  -- the check half answers the next item or holds it for its write
  · cases ho
    have hd := (h o hs).1
    simp only [hc, hr, Option.map_none', Option.toList_none, List.nil_append] at hd
    unfold checkStep
    rcases hci : checkItem q.d q.f (o.tx db q.d.table) q.userID item with ⟨ack | ⟨ext, p⟩, t⟩
    · refine ⟨?_, fun _ _ _ h' => by simp only [hc] at h'; cases h'⟩
      rw [List.length_append, List.length_singleton, drop_succ_of_drop_eq hd, hc]; rfl
    · refine ⟨hd, fun _ _ _ h' => ?_⟩
      cases h'
      exact (checkItem_eq_ok.mp hci).1
  -- the write half answers the checked item
  · cases ho
    have hd := (h o hs).1
    simp only [hc, Option.map_some', Option.toList_some, List.singleton_append] at hd
    refine ⟨?_, fun _ _ _ h' => by cases h'⟩
    simp only [writeStep, List.length_append, List.length_singleton, drop_succ_of_drop_eq hd]
    rfl

end PushReq

/-! ## A batch alone runs the handler -/

namespace OpenBatch

/-- The open batch stands where the handler's loop stands at `t`, over the committed store
`db`: the same round trips and abort flag, and while live the same store. -/
def At (o : OpenBatch) (db : Db) (k : Kind) (t : Tx) : Prop :=
  o.aborted = t.aborted ∧ o.stmt = t.stmt ∧ (t.aborted = false → db.overlay k o.rows = t.db)

variable {o : OpenBatch} {db : Db} {k : Kind} {t : Tx}

/-- Its transaction is the loop's, but for the store, which an aborted transaction never
reads. -/
theorem tx_of_at (h : o.At db k t) : o.tx db k = { t with db := db.overlay k o.rows } := by
  obtain ⟨ha, hs, -⟩ := h
  simp [tx, ha, hs]

theorem tx_of_at_live (h : o.At db k t) (hl : t.aborted = false) : o.tx db k = t := by
  rw [tx_of_at h, h.2.2 hl]

/-- So the checks answer as the loop's do. -/
theorem checkItem_tx (h : o.At db k t) (d : ItemKind) (f : Faults) (userID : String) (item : Json) :
    checkItem d f (o.tx db k) userID item =
      ((checkItem d f t userID item).1, { (checkItem d f t userID item).2 with db := db.overlay k o.rows }) := by
  cases hl : t.aborted
  · rw [tx_of_at_live h hl, h.2.2 hl, ← @checkItem_db d f t userID item]
  · rw [tx_of_at h, checkItem_aborted hl]

end OpenBatch

namespace PushReq

variable {q : PushReq} {db : Db} {o : OpenBatch} {t : Tx}

/-- The check half answers as `checkItem` does on the loop's transaction. -/
theorem checkStep_at (h : o.At db q.d.table t) (item : Json) (rest : List Json) :
    q.checkStep db o item rest = (match checkItem q.d q.f t q.userID item with
      | (.error ack, t') => { o with aborted := t'.aborted, stmt := t'.stmt, acks := o.acks ++ [ack], rest }
      | (.ok (ext, p), t') =>
        { o with aborted := t'.aborted, stmt := t'.stmt, checked := some (item, ext, p), rest }) ∧
      (q.checkStep db o item rest).At db q.d.table (checkItem q.d q.f t q.userID item).2 := by
  have hdb := @checkItem_db q.d q.f t q.userID item
  have hl := @checkItem_live q.d q.f t q.userID item
  unfold checkStep
  rw [OpenBatch.checkItem_tx h]
  rcases hc : checkItem q.d q.f t q.userID item with ⟨ack | ⟨ext, p⟩, t'⟩ <;> rw [hc] at hdb hl <;>
    exact ⟨rfl, rfl, rfl, fun ha => (h.2.2 (hl ha)).trans hdb.symm⟩

/-- The write half answers as `writeItem` does on the loop's transaction, and its rows then
make up what that transaction sees. -/
theorem writeStep_at (h : o.At db q.d.table t) (item : Json) (ext : Extracted) (p : ParentRef) :
    (q.writeStep db o item ext p).acks = o.acks ++ [(writeItem q.d.table q.f t q.userID item ext p).1] ∧
      (q.writeStep db o item ext p).checked = none ∧ (q.writeStep db o item ext p).rest = o.rest ∧
      (q.writeStep db o item ext p).At db q.d.table (writeItem q.d.table q.f t q.userID item ext p).2 := by
  have hl := writeItem_live q.d.table q.f t q.userID item ext p
  cases ha : t.aborted
  -- a live transaction: the batch's own rows are what the loop's transaction holds
  · unfold writeStep
    rw [OpenBatch.tx_of_at_live h ha]
    refine ⟨rfl, rfl, rfl, rfl, rfl, fun ha' => ?_⟩
    by_cases he : (writeItem q.d.table q.f t q.userID item ext p).1.error = ""
    · obtain ⟨-, payload, r, -, -, hr, heq⟩ := writeItem_ok _ _ _ _ _ _ _ he
      simp only [heq, if_true, Db.find_lwwPut, lwwRow_toRow_key hr, and_self, Option.toList_some,
        Db.overlay_snoc, h.2.2 ha]
    · simp only [he, if_false, h.2.2 ha, (writeItem_error _ _ _ _ _ _ _ he ha').1]
  -- an aborted one: every statement is refused, whatever the store
  · unfold writeStep
    rw [OpenBatch.tx_of_at h, writeItem_aborted _ _ _ _ _ _ _ ha]
    exact ⟨rfl, rfl, rfl, rfl, rfl, fun ha' => absurd (hl ha') (by simp [ha])⟩

/-- The batch stepped `n` times on the committed store `db` while no other batch is open. -/
def alone (n : Nat) (q : PushReq) (db : Db) : PushReq × Db :=
  (fun qd : PushReq × Db => qd.1.step qd.2 fun _ _ => false)^[n] (q, db)

theorem alone_succ (n : Nat) (q : PushReq) (db : Db) :
    alone (n + 1) q db = alone n (q.step db fun _ _ => false).1 (q.step db fun _ _ => false).2 := rfl

theorem alone_succ' (n : Nat) (q : PushReq) (db : Db) :
    alone (n + 1) q db = (alone n q db).1.step (alone n q db).2 fun _ _ => false :=
  Function.iterate_succ_apply' _ _ _

theorem alone_add (m n : Nat) (q : PushReq) (db : Db) :
    alone (m + n) q db = alone m (alone n q db).1 (alone n q db).2 :=
  Function.iterate_add_apply _ _ _ _

/-- An answered batch stays as it is. -/
theorem alone_finished {answer : Nat × List PushAck} (h : q.stage = .finished answer) :
    ∀ n, alone n q db = (q, db)
  | 0 => rfl
  | n + 1 => by rw [alone_succ, step_finished _ _ _ h]; exact alone_finished h n

/-- One item alone: its check half, then its write half if the checks pass, answer as
`pushItem` on the loop's transaction. -/
theorem alone_item {item : Json} {rest : List Json} (hs : q.stage = .running o) (hc : o.checked = none)
    (hr : o.rest = item :: rest) (h : o.At db q.d.table t) :
    ∃ n ≤ 1, ∃ o', alone (n + 1) q db = ({ q with stage := .running o' }, db) ∧ o'.checked = none ∧
      o'.rest = rest ∧ o'.acks = o.acks ++ [(pushItem q.d q.f t q.userID item).1] ∧
      o'.At db q.d.table (pushItem q.d q.f t q.userID item).2 := by
  obtain ⟨hcs, hat⟩ := checkStep_at (q := q) h item rest
  have hpush : pushItem q.d q.f t q.userID item = match checkItem q.d q.f t q.userID item with
      | (.error ack, t) => (ack, t)
      | (.ok (ext, p), t) => writeItem q.d.table q.f t q.userID item ext p := rfl
  rcases hci : checkItem q.d q.f t q.userID item with ⟨ack | ⟨ext, p⟩, t'⟩ <;>
    simp only [hci] at hcs hat hpush <;> rw [hpush] <;> rw [hcs] at hat
  -- a check rejects the item: one step
  · exact ⟨0, by omega, { o with aborted := t'.aborted, stmt := t'.stmt, acks := o.acks ++ [ack], rest },
      by rw [alone_succ, step_check _ _ _ hs hc hr, hcs]; rfl, hc, rfl, rfl, hat⟩
  -- the checks pass: the write half follows, and no other batch holds a lock
  · obtain ⟨hacks, hc', hr', hat'⟩ := writeStep_at (q := { q with stage := .running (
      { o with aborted := t'.aborted, stmt := t'.stmt, checked := some (item, ext, p), rest }) }) hat item ext p
    refine ⟨1, le_refl _, _, ?_, hc', hr', hacks, hat'⟩
    rw [alone_succ, step_check _ _ _ hs hc hr, hcs, alone_succ,
      step_write _ _ _ rfl rfl (Bool.and_false _)]
    rfl

/-- The items alone, one after the other, answer as the handler's loop over them. -/
theorem alone_loop : ∀ (items : List Json) (q : PushReq) (o : OpenBatch) (t : Tx),
    q.stage = .running o → o.checked = none → o.rest = items → o.At db q.d.table t →
    ∃ n ≤ 2 * items.length, ∃ o', alone n q db = ({ q with stage := .running o' }, db) ∧
      o'.checked = none ∧ o'.rest = [] ∧ o'.acks = o.acks ++ (pushLoop q.d q.f q.userID t items).1 ∧
      o'.At db q.d.table (pushLoop q.d q.f q.userID t items).2
  | [], q, o, t, hs, hc, hr, h => ⟨0, le_refl _, o, by cases q; cases hs; rfl, hc, hr, by simp, h⟩
  | item :: items, q, o, t, hs, hc, hr, h => by
    obtain ⟨n, hn, o₁, h₁, hc₁, hr₁, ha₁, hat₁⟩ := alone_item hs hc hr h
    obtain ⟨m, hm, o₂, h₂, hc₂, hr₂, ha₂, hat₂⟩ :=
      alone_loop items { q with stage := .running o₁ } o₁ _ rfl hc₁ hr₁ hat₁
    refine ⟨m + (n + 1), by simp only [List.length_cons]; omega, o₂, ?_, hc₂, hr₂, ?_, ?_⟩
    · rw [alone_add, h₁]; exact h₂
    · rw [ha₂, ha₁, pushLoop_cons, List.append_assoc, List.singleton_append]
    · rw [pushLoop_cons]; exact hat₂

/-- `COMMIT` answers as on the loop's transaction. -/
theorem commit_tx {f : Faults} (h : o.At db q.d.table t) : (o.tx db q.d.table).commit f = t.commit f := by
  cases ha : t.aborted
  · rw [OpenBatch.tx_of_at_live h ha]
  · simp [Tx.commit, OpenBatch.tx, h.1, ha]

/-- A batch alone, from its `BEGIN` to its `COMMIT`, answers and commits what the handler
answers and commits; its `2 n + 2` steps for `n` items are enough. -/
theorem alone_handler (hs : q.stage = .ready) {m : Nat} (hm : 2 * q.items.length + 2 ≤ m) :
    alone m q db = ({ q with stage := .finished (pushHandler q.d q.f db q.userID q.items).1 },
      (pushHandler q.d q.f db q.userID q.items).2) := by
  obtain ⟨m, rfl⟩ : ∃ m', m = m' + 1 := ⟨m - 1, by omega⟩
  rw [alone_succ, step_ready _ _ _ hs]
  by_cases hf : q.f 0 = true
  -- `BEGIN` fails
  · simp only [hf, if_true, pushHandler]
    exact alone_finished rfl m
  -- the loop, then `COMMIT`
  simp only [hf, Bool.false_eq_true, if_false, pushHandler]
  have hat : OpenBatch.At ⟨false, 1, [], [], none, q.items⟩ db q.d.table (Tx.begin db) :=
    ⟨rfl, rfl, fun _ => rfl⟩
  obtain ⟨n, hn, o', h₁, hc, hr, ha, hat'⟩ := @alone_loop db q.items
    { q with stage := .running ⟨false, 1, [], [], none, q.items⟩ } _ _ rfl rfl rfl hat
  obtain ⟨m', rfl⟩ : ∃ m', m = m' + 1 + n := ⟨m - n - 1, by omega⟩
  rw [alone_add, h₁, alone_succ,
    step_commit _ _ _ rfl hc hr, commit_tx (q := { q with stage := .running o' }) hat']
  rcases (pushLoop q.d q.f q.userID (Tx.begin db) q.items).2.commit q.f with e | db' <;>
    simp only [ha, List.nil_append] <;> exact alone_finished rfl m'

end PushReq

namespace Pushes

theorem run_snoc (s : Pushes) (sched : List Nat) (i : Nat) :
    s.run (sched ++ [i]) = (s.run sched).step i := List.foldl_append ..

/-- Stepping a batch leaves the other batches as they were. -/
theorem step_reqs_ne (s : Pushes) {i j : Nat} (h : j ≠ i) : (s.step i).reqs[j]? = s.reqs[j]? := by
  unfold step
  split
  · rfl
  · exact List.getElem?_set_ne (Ne.symm h)

/-- Stepping the `i`-th batch is its own step on the committed store. -/
theorem step_of_getElem? {s : Pushes} {i : Nat} {q : PushReq} (hi : s.reqs[i]? = some q) :
    s.step i = ⟨s.reqs.set i (q.step s.db (s.busy i)).1, (q.step s.db (s.busy i)).2⟩ := by
  simp [step, hi]

theorem step_getElem?_self {s : Pushes} {i : Nat} {q : PushReq} (hi : s.reqs[i]? = some q) :
    (s.step i).reqs[i]? = some (q.step s.db (s.busy i)).1 := by
  rw [step_of_getElem? hi, List.getElem?_set_self (List.getElem?_eq_some_iff.mp hi).1]

/-- Every batch of a run tracks its items. -/
theorem tracks_run {s : Pushes} (h : ∀ q ∈ s.reqs, q.Tracks) :
    ∀ sched, ∀ q ∈ (s.run sched).reqs, q.Tracks := by
  intro sched
  induction sched using List.reverseRecOn with
  | nil => exact h
  | append_singleton sched i ih =>
    rw [run_snoc]
    unfold step
    split
    · exact ih
    · intro q hq
      rcases List.mem_or_eq_of_mem_set hq with hq | rfl
      · exact ih q hq
      · exact PushReq.tracks_step (ih _ (List.getElem?_mem ‹_›)) _ _

theorem busy_eq_true {s : Pushes} {i : Nat} {k : Kind} {key : String × Uuid} :
    s.busy i k key = true ↔ ∃ j ≠ i, ∃ q, s.reqs[j]? = some q ∧ q.locks k key = true := by
  simp only [busy, List.any_eq_true, List.mem_eraseIdx_iff_getElem?]
  constructor
  · rintro ⟨q, ⟨j, hj, hq⟩, hl⟩; exact ⟨j, hj, q, hq, hl⟩
  · rintro ⟨j, hj, q, hq, hl⟩; exact ⟨q, ⟨j, hj, hq⟩, hl⟩

/-- No batch but the `i`-th is open. -/
def ClosedBut (s : Pushes) (i : Nat) : Prop :=
  ∀ j ≠ i, ∀ q, s.reqs[j]? = some q → ∀ o, q.stage ≠ .running o

/-- With no other batch open, the `i`-th steps alone. -/
theorem step_of_closedBut {s : Pushes} {i : Nat} {q : PushReq} (hi : s.reqs[i]? = some q)
    (hc : s.ClosedBut i) :
    s.step i = ⟨s.reqs.set i (q.step s.db fun _ _ => false).1, (q.step s.db fun _ _ => false).2⟩ := by
  have hb : s.busy i = fun _ _ => false := by
    funext k key
    refine Bool.eq_false_iff.mpr fun h => ?_
    obtain ⟨j, hj, q', hq', hl⟩ := busy_eq_true.mp h
    unfold PushReq.locks at hl
    split at hl
    · exact hc j hj q' hq' _ ‹_›
    · cases hl
  simp [step, hi, hb]

theorem closedBut_set {s : Pushes} {i : Nat} (hc : s.ClosedBut i) (q : PushReq) (db : Db) :
    ClosedBut ⟨s.reqs.set i q, db⟩ i := fun j hj q' hq' =>
  hc j hj q' (by rwa [List.getElem?_set_ne (Ne.symm hj)] at hq')

/-- Stepping only the `i`-th batch while no other is open. -/
theorem run_replicate {s : Pushes} {i : Nat} {q : PushReq} (hi : s.reqs[i]? = some q)
    (hc : s.ClosedBut i) : ∀ n, s.run (List.replicate n i) =
      ⟨s.reqs.set i (q.alone n s.db).1, (q.alone n s.db).2⟩
  | 0 => by
    have hset : s.reqs.set i q = s.reqs := List.ext_getElem? fun j => by
      by_cases h : i = j
      · subst h; rw [hi, List.getElem?_set_self (List.getElem?_eq_some_iff.mp hi).1]
      · exact List.getElem?_set_ne h
    simp [run, PushReq.alone, hset]
  | n + 1 => by
    have hlt : i < s.reqs.length := (List.getElem?_eq_some_iff.mp hi).1
    rw [List.replicate_succ', run_snoc, run_replicate hi hc n,
      step_of_closedBut (q := (q.alone n s.db).1) (by simp [hlt]) (closedBut_set hc _ _), List.set_set,
      PushReq.alone_succ']

/-- A ready batch run alone, with enough steps, answers and commits as its handler. -/
theorem run_alone {s : Pushes} {i : Nat} {q : PushReq} (hi : s.reqs[i]? = some q)
    (hq : q.stage = .ready) (hc : s.ClosedBut i) {m : Nat} (hm : 2 * q.items.length + 2 ≤ m) :
    s.run (List.replicate m i) =
      ⟨s.reqs.set i { q with stage := .finished (pushHandler q.d q.f s.db q.userID q.items).1 },
        (pushHandler q.d q.f s.db q.userID q.items).2⟩ := by
  rw [run_replicate hi hc, PushReq.alone_handler hq hm]

/-- The store the handlers of the batches `is` commit, run one after the other from `db`. -/
def serialDb (reqs : List PushReq) (is : List Nat) (db : Db) : Db :=
  is.foldl (fun db i => match reqs[i]? with
    | some q => (pushHandler q.d q.f db q.userID q.items).2
    | none => db) db

/-- Only the batches a serial schedule runs matter to it. -/
theorem serialDb_congr {reqs reqs' : List PushReq} :
    ∀ {is : List Nat}, (∀ j ∈ is, reqs'[j]? = reqs[j]?) → ∀ db, serialDb reqs' is db = serialDb reqs is db
  | [], _, _ => rfl
  | i :: is, h, db => by
    simp only [serialDb, List.foldl_cons, h i (List.mem_cons_self _ _)]
    exact serialDb_congr (fun j hj => h j (List.mem_cons_of_mem _ hj)) _

/-- Serial schedules: batches run one after the other, each alone and to its end, commit what
their handlers commit in that order. -/
theorem run_serial : ∀ (s : Pushes) (is : List Nat) (m : Nat),
    (∀ q ∈ s.reqs, 2 * q.items.length + 2 ≤ m) → is.Nodup →
    (∀ i ∈ is, ∃ q, s.reqs[i]? = some q ∧ q.stage = .ready) →
    (∀ q ∈ s.reqs, ∀ o, q.stage ≠ .running o) →
    (s.run (is.flatMap fun i => List.replicate m i)).db = serialDb s.reqs is s.db
  | _, [], _, _, _, _, _ => rfl
  | s, i :: is, m, hm, hnd, hready, hclosed => by
    obtain ⟨q, hi, hq⟩ := hready i (List.mem_cons_self _ _)
    have hc : s.ClosedBut i := fun j _ q' hq' => hclosed q' (List.getElem?_mem hq')
    have hne : ∀ j ∈ is, (s.reqs.set i { q with stage := (.finished
        (pushHandler q.d q.f s.db q.userID q.items).1) })[j]? = s.reqs[j]? := fun j hj =>
      List.getElem?_set_ne fun h => (List.nodup_cons.mp hnd).1 (by rwa [h])
    rw [List.flatMap_cons, run, List.foldl_append, ← run, ← run,
      run_alone hi hq hc (hm q (List.getElem?_mem hi)),
      run_serial _ is m ?_ (List.nodup_cons.mp hnd).2 ?_ ?_, serialDb_congr hne]
    · simp only [serialDb, List.foldl_cons, hi]
    -- the batch now answered has the same items, and the others are as they were
    · intro q' hq'
      rcases List.mem_or_eq_of_mem_set hq' with hq' | rfl
      · exact hm q' hq'
      · exact hm q (List.getElem?_mem hi)
    · exact fun j hj => by rw [hne j hj]; exact hready j (.tail _ hj)
    · intro q' hq' o
      rcases List.mem_or_eq_of_mem_set hq' with hq' | rfl
      · exact hclosed q' hq' o
      · exact fun h => by cases h

/-- Two one-item batches of `u`, writing note `…0a` at 5 and at 3. -/
def twoBatches : Pushes :=
  ⟨[⟨rootItems .note, Faults.none, "u", [syncItem "00000000-0000-0000-0000-00000000000a" 5 1], .ready⟩,
    ⟨rootItems .note, Faults.none, "u", [syncItem "00000000-0000-0000-0000-00000000000a" 3 1], .ready⟩],
    Db.empty⟩

/-- The second batch, then the first, each in its four steps. -/
theorem run_serial_twoBatches :
    (∀ q ∈ twoBatches.reqs, 2 * q.items.length + 2 ≤ 4) ∧ [1, 0].Nodup ∧
      (∀ i ∈ [1, 0], ∃ q, twoBatches.reqs[i]? = some q ∧ q.stage = .ready) ∧
      (∀ q ∈ twoBatches.reqs, ∀ o, q.stage ≠ .running o) ∧
      (twoBatches.run ([1, 0].flatMap fun i => List.replicate 4 i)).db =
        serialDb twoBatches.reqs [1, 0] twoBatches.db := by
  have hm : ∀ q ∈ twoBatches.reqs, 2 * q.items.length + 2 ≤ 4 := by simp [twoBatches]
  have hr : ∀ i ∈ [1, 0], ∃ q, twoBatches.reqs[i]? = some q ∧ q.stage = .ready := by
    simp [twoBatches]
  have hc : ∀ q ∈ twoBatches.reqs, ∀ o, q.stage ≠ .running o := by simp [twoBatches]
  exact ⟨hm, by decide, hr, hc, run_serial twoBatches [1, 0] 4 hm (by decide) hr hc⟩

end Pushes

end Toolbridge
