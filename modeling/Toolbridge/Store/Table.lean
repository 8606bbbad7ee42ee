import Toolbridge.Syncx.Cursor
import Toolbridge.Syncx.Extract
import Mathlib.Data.List.Sort

/-!
# Entity tables

Every entity kind has its own table with the same shape (§3, §6 "Persisted state
layout"): rows keyed by `(owner_id, uid)` carrying `updated_at_ms`, `deleted_at_ms`,
`version`, `payload_json` and the kind's parent columns. A table is the list of its rows
together with the primary-key constraint, so that no table with two rows under one key
can be built.

This module gives the SQL semantics the services rely on: the LWW upsert every push path
issues, and the cursor scan every pull issues. The `created_at` column is written by a
default and read by nothing we model, so rows leave it out.
-/

namespace Toolbridge

/-- The entity kinds (§3), one table each. -/
inductive Kind where
  | note
  | task
  | comment
  | chat
  | chatMessage
  | taskList
  | taskListCategory
  deriving DecidableEq, Repr

/-- A row of an entity table. -/
structure Row where
  uid : Uuid
  ownerId : String
  updatedAtMs : Int
  deletedAtMs : Option Int
  version : Int
  payloadJson : Json
  parent : ParentRef
  deriving DecidableEq, Repr

namespace Row

/-- The primary key `(owner_id, uid)`. -/
def key (r : Row) : String × Uuid := (r.ownerId, r.uid)

/-- The scan position `(updated_at_ms, uid)`. -/
def cursor (r : Row) : Cursor := ⟨r.updatedAtMs, r.uid⟩

end Row

/-- The largest value of a PostgreSQL `INT` column (`version`). -/
def int4Max : Int := 2 ^ 31 - 1

/-- A table: its rows, with the primary key `(owner_id, uid)` as a field. -/
structure Table where
  rows : List Row
  nodup : (rows.map Row.key).Nodup

namespace Table

/-- The empty table. -/
def empty : Table := ⟨[], List.nodup_nil⟩

/-- The row under key `(o, u)`, if any. -/
def find (t : Table) (o : String) (u : Uuid) : Option Row :=
  t.rows.find? fun r => r.key = (o, u)

private theorem nodup_map_replace (rows : List Row) (r : Row) (h : (rows.map Row.key).Nodup) :
    ((rows.map fun x => if x.key = r.key then r else x).map Row.key).Nodup := by
  rw [List.map_map]
  convert h using 2
  funext x
  by_cases hx : x.key = r.key <;> simp [hx]

private theorem nodup_append_new (rows : List Row) (r : Row) (h : (rows.map Row.key).Nodup)
    (hr : ¬ rows.any fun x => x.key = r.key) : ((rows ++ [r]).map Row.key).Nodup := by
  simp only [List.map_append, List.map_cons, List.map_nil]
  refine h.append (List.nodup_singleton _) (List.disjoint_singleton.mpr ?_)
  simpa using hr

/-- Write `r` under its key: the row with that key is replaced, or `r` is appended. -/
def put (t : Table) (r : Row) : Table :=
  if h : t.rows.any fun x => x.key = r.key then
    ⟨t.rows.map fun x => if x.key = r.key then r else x, nodup_map_replace _ _ t.nodup⟩
  else ⟨t.rows ++ [r], nodup_append_new _ _ t.nodup h⟩

/-- Whether the row under `(o, u)` exists and is not a tombstone. -/
def isLive (t : Table) (o : String) (u : Uuid) : Bool := (t.find o u).any (·.deletedAtMs.isNone)

/-- Keep the rows satisfying `p` (a `DELETE` of the others). -/
def filter (t : Table) (p : Row → Bool) : Table :=
  ⟨t.rows.filter p, t.nodup.sublist ((List.filter_sublist _).map _)⟩

/-- The rows of owner `o`, in table order. -/
def ownedBy (t : Table) (o : String) : List Row := t.rows.filter (·.ownerId = o)

end Table

/-! ## Keys are unique -/

namespace Table

theorem eq_of_mem_of_key_eq {t : Table} {r r' : Row} (hr : r ∈ t.rows) (hr' : r' ∈ t.rows)
    (hk : r.key = r'.key) : r = r' :=
  List.inj_on_of_nodup_map t.nodup hr hr' hk

theorem mem_of_find_eq_some {t : Table} {o : String} {u : Uuid} {r : Row}
    (h : t.find o u = some r) : r ∈ t.rows ∧ r.key = (o, u) :=
  ⟨List.mem_of_find?_eq_some h, by simpa using List.find?_some h⟩

theorem find_eq_some {t : Table} {o : String} {u : Uuid} {r : Row} :
    t.find o u = some r ↔ r ∈ t.rows ∧ r.key = (o, u) := by
  refine ⟨mem_of_find_eq_some, fun ⟨hr, hk⟩ => ?_⟩
  cases hf : t.find o u with
  | none => simpa [find, hk] using List.find?_eq_none.mp hf r hr
  | some r' =>
    obtain ⟨hr', hk'⟩ := mem_of_find_eq_some hf
    rw [eq_of_mem_of_key_eq hr hr' (hk.trans hk'.symm)]

theorem find_eq_none {t : Table} {o : String} {u : Uuid} :
    t.find o u = none ↔ ∀ r ∈ t.rows, r.key ≠ (o, u) := by
  simp [find, List.find?_eq_none]

theorem mem_put {t : Table} {r x : Row} :
    x ∈ (t.put r).rows ↔ x = r ∨ x ∈ t.rows ∧ x.key ≠ r.key := by
  unfold put
  split
  -- a row under the key: replaced in place
  · rename_i hany
    obtain ⟨y, hy, hyk⟩ := List.any_eq_true.mp hany
    simp only [List.mem_map]
    constructor
    · rintro ⟨z, hz, rfl⟩
      by_cases hzk : z.key = r.key <;> simp [hzk, hz]
    · rintro (rfl | ⟨hx, hxk⟩)
      · exact ⟨y, hy, by simp at hyk; simp [hyk]⟩
      · exact ⟨x, hx, by simp [hxk]⟩
  -- none: appended
  · rename_i hany
    simp only [List.mem_append, List.mem_singleton]
    constructor
    · rintro (hx | rfl)
      · exact .inr ⟨hx, fun hk => hany (List.any_eq_true.mpr ⟨x, hx, by simp [hk]⟩)⟩
      · exact .inl rfl
    · rintro (rfl | ⟨hx, -⟩)
      · exact .inr rfl
      · exact .inl hx

@[simp] theorem find_put (t : Table) (r : Row) (o : String) (u : Uuid) :
    (t.put r).find o u = if r.key = (o, u) then some r else t.find o u := by
  split
  · exact find_eq_some.mpr ⟨mem_put.mpr (.inl rfl), ‹_›⟩
  · rename_i hk
    apply Option.ext
    intro x
    rw [Option.mem_def, Option.mem_def, find_eq_some, find_eq_some, mem_put]
    constructor
    · rintro ⟨rfl | ⟨hx, -⟩, hxk⟩
      · exact absurd hxk hk
      · exact ⟨hx, hxk⟩
    · rintro ⟨hx, hxk⟩
      exact ⟨.inr ⟨hx, by rw [hxk]; exact Ne.symm hk⟩, hxk⟩

/-- Writing back the row a table already holds changes nothing. -/
theorem put_of_find {t : Table} {r : Row} (h : t.find r.ownerId r.uid = some r) : t.put r = t := by
  obtain ⟨hr, -⟩ := find_eq_some.mp h
  have hany : t.rows.any fun x => x.key = r.key := List.any_eq_true.mpr ⟨r, hr, by simp⟩
  unfold put
  rw [dif_pos hany]
  congr 1
  conv_rhs => rw [← List.map_id t.rows]
  refine List.map_congr_left fun x hx => ?_
  split
  · exact (eq_of_mem_of_key_eq hx hr ‹_›).symm
  · rfl

end Table

/-! ## The LWW upsert -/

/-- What the upsert copies from the write it accepts: the payload, the timestamps and the
parent columns. LWW arbitrates on this (the version is the server's own counter). -/
structure Content where
  payloadJson : Json
  updatedAtMs : Int
  deletedAtMs : Option Int
  parent : ParentRef
  deriving DecidableEq, Repr

/-- The content of a row. -/
def Row.content (r : Row) : Content := ⟨r.payloadJson, r.updatedAtMs, r.deletedAtMs, r.parent⟩

/-- The PostgreSQL error for an `INT` overflow. -/
def outOfRangeError : String := "ERROR: integer out of range (SQLSTATE 22003)"

/-- The row an LWW upsert of `new` leaves under its key, given the row `old` there:
`INSERT ... VALUES (..., GREATEST($5, 1), ...) ON CONFLICT (owner_id, uid) DO UPDATE SET
payload_json, updated_at_ms, deleted_at_ms, <parent columns> = EXCLUDED.*, version =
version + 1 WHERE EXCLUDED.updated_at_ms > updated_at_ms`. The increment raises an
error past the `INT` range. -/
def lwwRow : Option Row → Row → Except String Row
  | none, new => .ok { new with version := max new.version 1 }
  | some old, new =>
    if old.updatedAtMs < new.updatedAtMs then
      if old.version + 1 ≤ int4Max then .ok { new with version := old.version + 1 }
      else .error outOfRangeError
    else .ok old

theorem lwwRow_error {old : Option Row} {new : Row} {e : String} (h : lwwRow old new = .error e) :
    e = outOfRangeError := by
  unfold lwwRow at h
  split at h
  · cases h
  · split at h
    · split at h
      · cases h
      · exact (Except.error.inj h).symm
    · cases h

/-- The row an upsert leaves has the key it was offered under. -/
theorem lwwRow_key {old : Option Row} {new r : Row} (h : lwwRow old new = .ok r)
    (hold : ∀ o ∈ old, o.key = new.key) : r.key = new.key := by
  unfold lwwRow at h
  split at h
  · cases h; rfl
  · split at h
    · split at h
      · cases h; rfl
      · cases h
    · cases h; exact hold _ rfl

/-- The row LWW leaves is no older than the write offered, nor than the row it found. -/
theorem lwwRow_ms {old : Option Row} {new r : Row} (h : lwwRow old new = .ok r) :
    new.updatedAtMs ≤ r.updatedAtMs ∧ ∀ o ∈ old, o.updatedAtMs ≤ r.updatedAtMs := by
  unfold lwwRow at h
  split at h
  · cases h; simp
  · rename_i o
    split at h
    · split at h
      · cases h; simp only [Option.mem_def, Option.some.injEq, forall_eq']; omega
      · cases h
    · cases h; simp only [Option.mem_def, Option.some.injEq, forall_eq', le_refl, and_true]; omega

/-- A write newer than the row it finds is the row LWW leaves, at the version the counter
gives it: one past the found row's. -/
theorem lwwRow_of_newer {old : Option Row} {new r : Row} (h : lwwRow old new = .ok r)
    (hnew : ∀ o ∈ old, o.updatedAtMs < new.updatedAtMs) :
    ∃ v, r = { new with version := v } ∧ ∀ o ∈ old, v = o.version + 1 := by
  unfold lwwRow at h
  split at h
  · cases h; exact ⟨_, rfl, fun _ ho => absurd ho (Option.not_mem_none _)⟩
  · rw [if_pos (hnew _ rfl)] at h
    split at h
    · cases h; exact ⟨_, rfl, fun _ ho => by rw [← Option.mem_some_iff.mp ho]⟩
    · cases h

/-- The row LWW leaves under the key it was offered under. -/
theorem lwwRow_find_key {t : Table} {new r : Row} (h : lwwRow (t.find new.ownerId new.uid) new = .ok r) :
    r.key = (new.ownerId, new.uid) :=
  lwwRow_key h fun o ho => by rw [(Table.mem_of_find_eq_some ho).2]; rfl

/-- The upsert statement on a table. -/
def Table.upsert (t : Table) (new : Row) : Except String Table :=
  (lwwRow (t.find new.ownerId new.uid) new).map t.put

/-! ## The cursor scan -/

/-- The rows of `SELECT ... WHERE owner_id = $1 AND (updated_at_ms, uid) > ($2, $3)
ORDER BY updated_at_ms, uid`. -/
def Table.above (t : Table) (o : String) (cur : Cursor) : List Row :=
  (t.rows.filter fun r => r.ownerId = o ∧ cur < r.cursor).insertionSort
    fun a b => a.cursor ≤ b.cursor

/-- The same query with `LIMIT $4`. -/
def Table.scan (t : Table) (o : String) (cur : Cursor) (limit : Nat) : List Row :=
  (t.above o cur).take limit

end Toolbridge
