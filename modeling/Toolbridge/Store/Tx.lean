import Toolbridge.Store.Table

/-!
# The database and its transactions

The database holds one table per entity kind and the `owner_state` relation (§3). A
request talks to it through statements, each a round trip, most of them inside one
transaction.

Transactions follow PostgreSQL: a statement that fails on the server aborts the
transaction, every later statement of it fails with "current transaction is aborted",
and `COMMIT` then rolls back (pgx reports `ErrTxCommitRollback`). The environment can make
any round trip fail (a lost connection, a cancelled context); which ones do is an input
of the request, `Faults`, so that every property is stated for every failure pattern.

A failed `COMMIT` round trip is taken to have rolled back. The model leaves out the one
other outcome of a lost `COMMIT`: PostgreSQL applied it and only the reply was lost, so that
pgx reports an error while the writes are committed.
-/

namespace Toolbridge

/-- The `owner_state` row of an owner (§3 "Owner state"). Its `created_at` and
`updated_at` columns are written and never read, so they are left out. -/
structure OwnerState where
  epoch : Int
  lastWipeAt : Option Int
  lastWipeBy : Option String
  deriving DecidableEq, Repr

/-- The database: one table per entity kind, and `owner_state` keyed by owner. -/
structure Db where
  tables : Kind → Table
  ownerState : String → Option OwnerState

namespace Db

/-- The empty database. -/
def empty : Db := ⟨fun _ => Table.empty, fun _ => none⟩

/-- Replace the table of kind `k`. -/
def setTable (db : Db) (k : Kind) (t : Table) : Db :=
  { db with tables := Function.update db.tables k t }

@[simp] theorem setTable_tables (db : Db) (k k' : Kind) (t : Table) :
    (db.setTable k t).tables k' = if k' = k then t else db.tables k' := by
  by_cases h : k' = k
  · subst h; simp [setTable]
  · simp [setTable, h]

@[simp] theorem setTable_ownerState (db : Db) (k : Kind) (t : Table) :
    (db.setTable k t).ownerState = db.ownerState := rfl

end Db

/-! ## Statements and transactions -/

/-- Failures injected by the environment: `faults n = true` makes the `n`-th round trip
of a request fail with `faultError`. -/
def Faults := Nat → Bool

/-- No round trip fails. -/
def Faults.none : Faults := fun _ => false

/-- The error of a round trip the environment broke. -/
def faultError : String := "conn closed"

/-- Results of statements can be compared, so that runs on concrete stores are decided. -/
instance decEqExcept {ε α : Type} [DecidableEq ε] [DecidableEq α] : DecidableEq (Except ε α)
  | .error a, .error b =>
    if h : a = b then isTrue (h ▸ rfl) else isFalse fun e => by cases e; exact h rfl
  | .ok a, .ok b => if h : a = b then isTrue (h ▸ rfl) else isFalse fun e => by cases e; exact h rfl
  | .error _, .ok _ | .ok _, .error _ => isFalse fun e => by cases e

/-- A statement: its result and the database it leaves, or the error the server raises. -/
abbrev Stmt (α : Type) := Db → Except String (α × Db)

/-- An open transaction: what it sees (the committed state and its own writes), whether
a failed statement has aborted it, and the number of round trips made so far. -/
structure Tx where
  db : Db
  aborted : Bool
  stmt : Nat

/-- The error of every statement of an aborted transaction. -/
def txAbortedError : String :=
  "ERROR: current transaction is aborted, commands ignored until end of transaction block (SQLSTATE 25P02)"

/-- pgx's error for a `COMMIT` that PostgreSQL turned into a rollback. -/
def commitRollbackError : String := "commit unexpectedly resulted in rollback"

namespace Tx

/-- `DB.Begin`, the round trip `0` of a request: a fresh transaction on `db`. -/
def begin (db : Db) : Tx := ⟨db, false, 1⟩

/-- `tx.Exec` / `tx.QueryRow`: one statement inside the transaction. -/
def exec {α : Type} (f : Faults) (t : Tx) (q : Stmt α) : Except String α × Tx :=
  let t' := { t with stmt := t.stmt + 1 }
  if t.aborted then (.error txAbortedError, t')
  else if f t.stmt then (.error faultError, { t' with aborted := true })
  else match q t.db with
    | .ok (a, db) => (.ok a, { t' with db := db })
    | .error e => (.error e, { t' with aborted := true })

/-- `tx.Commit`: the database the transaction publishes, or the error of a rollback. -/
def commit (f : Faults) (t : Tx) : Except String Db :=
  if t.aborted then .error commitRollbackError
  else if f t.stmt then .error faultError
  else .ok t.db

/-- A statement run in an aborted transaction changes nothing it sees. -/
@[simp] theorem exec_aborted {α : Type} (f : Faults) (t : Tx) (q : Stmt α) (h : t.aborted = true) :
    t.exec f q = (.error txAbortedError, { t with stmt := t.stmt + 1 }) := by
  simp [exec, h]

/-- A statement succeeds only in a live transaction whose round trip went through, and
then leaves the transaction live on the database the statement produced. -/
theorem exec_eq_ok {α : Type} {f : Faults} {t t' : Tx} {q : Stmt α} {a : α} :
    t.exec f q = (.ok a, t') ↔ t.aborted = false ∧ f t.stmt = false ∧
      ∃ db, q t.db = .ok (a, db) ∧ t' = ⟨db, false, t.stmt + 1⟩ := by
  unfold exec
  cases t.aborted <;> cases f t.stmt <;> simp only [Bool.false_eq_true, if_true, if_false] <;>
    try simp
  cases hq : q t.db with
  | error e => simp
  | ok p =>
    obtain ⟨b, db⟩ := p
    simp only [Prod.mk.injEq, Except.ok.injEq, true_and]
    constructor
    · rintro ⟨rfl, rfl⟩; exact ⟨db, by simp⟩
    · rintro ⟨db', h, rfl⟩; simp_all

/-- A failed statement leaves the transaction aborted on the database it saw. -/
theorem exec_eq_error {α : Type} {f : Faults} {t t' : Tx} {q : Stmt α} {e : String}
    (h : t.exec f q = (.error e, t')) : t'.aborted = true ∧ t'.db = t.db := by
  unfold exec at h
  cases ha : t.aborted <;> cases hf : f t.stmt <;>
    simp only [ha, hf, Bool.false_eq_true, if_true, if_false, Prod.mk.injEq] at h
  · cases hq : q t.db with
    | error e => rw [hq] at h; obtain ⟨-, rfl⟩ := h; exact ⟨rfl, rfl⟩
    | ok p => obtain ⟨b, db⟩ := p; rw [hq] at h; simp at h
  all_goals (obtain ⟨-, rfl⟩ := h; simp [ha])

/-- A transaction that ends live committed whatever its statements saw. -/
theorem commit_eq_ok {f : Faults} {t : Tx} {db : Db} :
    t.commit f = .ok db ↔ t.aborted = false ∧ f t.stmt = false ∧ db = t.db := by
  unfold commit
  cases t.aborted <;> cases f t.stmt <;> simp [eq_comm]

end Tx

end Toolbridge
