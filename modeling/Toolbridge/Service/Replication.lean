import Toolbridge.Service.Pagination

/-!
# Incremental replication under concurrent writes

One client of owner `u` replicates kind `k`: it pulls through the HTTP handler, keeps the
last `nextCursor` text it received, and meanwhile any device commits push batches. Pulls
and commits are atomic steps: a pull reads the committed store, a batch commits as a whole.

A pull only returns rows above the client's cursor, and the cursor only grows. So a row
reaches the client if and only if it sits above the cursor when it is written: a write
that lands at or below the cursor (a client clock behind, or a timestamp chosen low) is
never pulled. The invariant `Caught` says that every row of the store is delivered as it
stands or still above the cursor; writes above the cursor keep it (`Caught.push`), and so
does every pull (`Caught.pull`). An empty page then means everything was delivered.
-/

namespace Toolbridge

/-- What a client of one owner holds while it replicates one kind, with the store it reads:
the committed store, the last `nextCursor` text it received (empty before any), and the
pages it received. -/
structure Replica where
  db : Db
  cursorText : String
  log : List PullResponse

/-- A step of the system: a device commits a push batch, or the client pulls. -/
inductive Event where
  | push (d : ItemKind) (f : Faults) (userID : String) (items : List Json)
  | pull (f : Faults) (limit : String)

namespace Replica

variable (k : Kind) (u : String)

/-- One step; a failed pull changes nothing. -/
def step (s : Replica) : Event → Replica
  | .push d f userID items => { s with db := (pushHandler d f s.db userID items).2 }
  | .pull f limit =>
    match (pullHandler k f s.db u s.cursorText limit).2 with
    | .ok resp => { s with cursorText := resp.nextCursor.getD s.cursorText, log := s.log ++ [resp] }
    | .error _ => s

/-- A run of steps. -/
def run : Replica → List Event → Replica
  | s, [] => s
  | s, e :: es => run (s.step k u e) es

/-- The client before its first pull. -/
def start (db : Db) : Replica := ⟨db, "", []⟩

end Replica

/-- Whether a page carries row `r` as it stands: its payload among the upserts if the row
is live, its tombstone among the deletes if not. -/
def PullResponse.carries (resp : PullResponse) (r : Row) : Bool :=
  match r.deletedAtMs with
  | none => resp.upserts.contains r.payloadJson
  | some d => resp.deletes.contains ⟨r.uid.toString, rfc3339 d⟩

/-- The client received row `r` as it stands. -/
def Delivered (log : List PullResponse) (r : Row) : Prop := ∃ resp ∈ log, resp.carries r

instance (log : List PullResponse) (r : Row) : Decidable (Delivered log r) :=
  inferInstanceAs (Decidable (∃ resp ∈ log, resp.carries r))

theorem Delivered.mono {log : List PullResponse} {r : Row} (h : Delivered log r)
    (resp : PullResponse) : Delivered (log ++ [resp]) r := by
  obtain ⟨x, hx, hr⟩ := h
  exact ⟨x, List.mem_append_left _ hx, hr⟩

/-- A row of a page is delivered by it. -/
theorem delivered_of_mem_page {log : List PullResponse} {rows : List Row} {r : Row} (hr : r ∈ rows) :
    Delivered (log ++ [pullPage rows]) r := by
  refine ⟨pullPage rows, List.mem_append_right _ (List.mem_singleton_self _), ?_⟩
  cases hd : r.deletedAtMs <;> simp only [PullResponse.carries, hd, List.elem_eq_mem,
    decide_eq_true_eq] <;> exact List.mem_filterMap.mpr ⟨r, hr, by simp [hd]⟩

/-- Every row of `u` in `k` is delivered as it stands, or still above the client's cursor. -/
def Caught (k : Kind) (u : String) (s : Replica) : Prop :=
  ∀ r ∈ (s.db.tables k).ownedBy u, resumeCursor s.cursorText < r.cursor ∨ Delivered s.log r

/-- Every row of `u` in `k` that the new store holds and the old one did not (a new row or a
new version of one) lies above the client's cursor. -/
def LandsAbove (k : Kind) (u : String) (s : Replica) (db' : Db) : Prop :=
  ∀ r ∈ (db'.tables k).ownedBy u, r ∉ (s.db.tables k).ownedBy u → resumeCursor s.cursorText < r.cursor

instance (k : Kind) (u : String) (s : Replica) (db' : Db) : Decidable (LandsAbove k u s db') :=
  inferInstanceAs (Decidable (∀ r ∈ (db'.tables k).ownedBy u, _))

/-- Every batch of the run lands above the cursor the client holds when it commits. -/
def WritesAbove (k : Kind) (u : String) : Replica → List Event → Prop
  | _, [] => True
  | s, e :: es =>
    (match e with
      | .push d f userID items => LandsAbove k u s (pushHandler d f s.db userID items).2
      | .pull _ _ => True) ∧ WritesAbove k u (s.step k u e) es

section steps

variable {k : Kind} {u : String} {s : Replica}

theorem Caught.push {db' : Db} (h : Caught k u s) (hl : LandsAbove k u s db') :
    Caught k u { s with db := db' } := by
  intro r hr
  by_cases hold : r ∈ (s.db.tables k).ownedBy u
  · exact h r hold
  · exact .inl (hl r hr hold)

/-- A page delivers every row between the old cursor and the new one. -/
theorem Caught.pull {f : Faults} {limit : String} (h : Caught k u s) :
    Caught k u (s.step k u (.pull f limit)) := by
  simp only [Replica.step, pullHandler]
  cases hp : pullItems k f s.db u (resumeCursor s.cursorText) (parseLimit limit 500 1000) with
  -- a failed pull leaves the cursor
  | error e => exact h
  -- a page: the rows up to its last are delivered, the rest still lie above the new cursor
  | ok resp =>
    simp only [pullItems] at hp
    split_ifs at hp
    cases hp
    set cur := resumeCursor s.cursorText
    set S := (s.db.tables k).above u cur
    intro r hr
    rcases h r hr with habove | hdel
    -- a row above the old cursor: above the new one, or on the page
    · simp only [pullPage_nextCursor, Table.scan]
      rcases hlast : (S.take (parseLimit limit 500 1000)).getLast? with _ | x
      · exact .inl (by simpa using habove)
      · have hres : resumeCursor (encodeCursor x.cursor) = x.cursor := by
          simp [resumeCursor, decodeCursor_encodeCursor]
        simp only [Option.map_some', Option.getD_some, hres]
        by_cases hx : x.cursor < r.cursor
        · exact .inl hx
        · refine .inr (delivered_of_mem_page ?_)
          have hrS : r ∈ S := Table.mem_above.mpr ⟨(List.mem_filter.mp hr).1, by
            simpa using (List.mem_filter.mp hr).2, habove⟩
          rw [← List.take_append_drop (parseLimit limit 500 1000) S] at hrS
          rcases List.mem_append.mp hrS with hin | hin
          · exact hin
          · exact absurd (Table.above_sorted.rel_of_mem_take_of_mem_drop
              (List.mem_of_getLast?_eq_some hlast) hin) hx
    -- a row delivered before stays delivered
    · exact .inr (hdel.mono _)

/-- A pull that comes back without a next cursor finds every row delivered. -/
theorem Caught.complete {f : Faults} {limit : String} {resp : PullResponse} (h : Caught k u s)
    (hp : (pullHandler k f s.db u s.cursorText limit).2 = .ok resp) (hn : resp.nextCursor = none) :
    ∀ r ∈ (s.db.tables k).ownedBy u, Delivered s.log r := by
  simp only [pullHandler, pullItems] at hp
  split_ifs at hp
  simp only [Except.ok.injEq] at hp
  subst hp
  rw [pullPage_nextCursor, Option.map_eq_none', List.getLast?_eq_none_iff, Table.scan,
    List.take_eq_nil_iff] at hn
  have hS : (s.db.tables k).above u (resumeCursor s.cursorText) = [] := by
    rcases hn with hn | hn
    · exact absurd hn (parseLimit_pos limit).1.ne'
    · exact hn
  intro r hr
  rcases h r hr with habove | hdel
  · have : r ∈ (s.db.tables k).above u (resumeCursor s.cursorText) :=
      Table.mem_above.mpr ⟨(List.mem_filter.mp hr).1, by simpa using (List.mem_filter.mp hr).2, habove⟩
    rw [hS] at this; cases this
  · exact hdel

end steps

/-- Every run whose batches land above the cursor keeps every row caught. -/
theorem Replica.run_caught {k : Kind} {u : String} :
    ∀ {s : Replica} {events : List Event}, Caught k u s → WritesAbove k u s events →
      Caught k u (s.run k u events)
  | _, [], h, _ => h
  | s, .push d f userID items :: _, h, ⟨hl, hw⟩ =>
    run_caught (s := s.step k u (.push d f userID items)) (h.push hl) hw
  | s, .pull f limit :: _, h, ⟨_, hw⟩ => run_caught (s := s.step k u (.pull f limit)) h.pull hw

/-- Replication misses no committed write that lands above the cursor: a client that starts
at the origin, on a store whose rows of its owner lie above the origin, and resumes each pull
from the last next cursor, has received every row of the store, as it stands, whenever a
pull comes back without a next cursor, provided every batch lands above the cursor the client
holds when it commits. -/
theorem replica_complete (k : Kind) (u : String) (db₀ : Db) (events : List Event)
    (h₀ : ∀ r ∈ (db₀.tables k).ownedBy u, Cursor.origin < r.cursor)
    (hw : WritesAbove k u (Replica.start db₀) events) (f : Faults) (limit : String)
    (resp : PullResponse)
    (hp : (pullHandler k f ((Replica.start db₀).run k u events).db u
      ((Replica.start db₀).run k u events).cursorText limit).2 = .ok resp)
    (hn : resp.nextCursor = none) :
    ∀ r ∈ ((((Replica.start db₀).run k u events).db).tables k).ownedBy u,
      Delivered ((Replica.start db₀).run k u events).log r :=
  have hstart : resumeCursor "" = Cursor.origin := rfl
  (Replica.run_caught (fun r hr => .inl (hstart ▸ h₀ r hr)) hw).complete hp hn

/-- The law on one write pulled and then confirmed by an empty page. -/
theorem replica_complete_one_write :
    let events := [Event.push (rootItems .taskListCategory) Faults.none "u"
      [syncItem "00000000-0000-0000-0000-00000000000a" 10 1], .pull Faults.none "10",
      .pull Faults.none "10"]
    let s := (Replica.start Db.empty).run .taskListCategory "u" events
    (∀ r ∈ (Db.empty.tables .taskListCategory).ownedBy "u", Cursor.origin < r.cursor) ∧
    WritesAbove .taskListCategory "u" (Replica.start Db.empty) events ∧
    (pullHandler .taskListCategory Faults.none s.db "u" s.cursorText "10").2 = .ok (pullPage []) ∧
    (pullPage []).nextCursor = none ∧
    ∀ r ∈ (s.db.tables .taskListCategory).ownedBy "u", Delivered s.log r := by
  intro events s
  have h₀ : ∀ r ∈ (Db.empty.tables .taskListCategory).ownedBy "u", Cursor.origin < r.cursor := by
    decide
  have hw : WritesAbove .taskListCategory "u" (Replica.start Db.empty) events :=
    ⟨by show LandsAbove _ _ _ _; decide, trivial, trivial, trivial⟩
  have hp : (pullHandler .taskListCategory Faults.none s.db "u" s.cursorText "10").2 =
      .ok (pullPage []) := by decide
  exact ⟨h₀, hw, hp, rfl, replica_complete _ _ _ _ h₀ hw _ _ _ hp rfl⟩

/-- A write that lands below the cursor is never pulled: a category at `updated_at_ms` 10 is
pulled, then a device commits a new category at `updated_at_ms` 5, and the next pull comes
back empty although the new row was never delivered. -/
theorem replica_misses_write_below_cursor :
    let s := (Replica.start Db.empty).run .taskListCategory "u"
      [.push (rootItems .taskListCategory) Faults.none "u"
          [syncItem "00000000-0000-0000-0000-00000000000a" 10 1],
        .pull Faults.none "10",
        .push (rootItems .taskListCategory) Faults.none "u"
          [syncItem "00000000-0000-0000-0000-00000000000b" 5 1]]
    (pullHandler .taskListCategory Faults.none s.db "u" s.cursorText "10").2 = .ok (pullPage []) ∧
    ∃ r ∈ (s.db.tables .taskListCategory).ownedBy "u", ¬ Delivered s.log r := by
  intro s
  decide

end Toolbridge
