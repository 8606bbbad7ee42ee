import Toolbridge.Service.Rest
import Toolbridge.Service.Account

/-!
# Statements scoped to one owner

Every statement the handlers issue names the owner it works for: the upsert's conflict key,
the read-back, the parent `EXISTS`, the REST probe and patch, the scans, the wipe's deletes
and the `owner_state` statements all carry `owner_id = $n`. This module states that as a
property of a statement (`Scoped`): what it answers, and what it leaves of the owner's data,
depends on the owner's data alone, and it leaves every other owner's data as it was. Two
stores agree on an owner (`Agree`) when they hold the same rows of that owner, in the same
order, and the same owner state.

The property lifts from statements to the transactions that run them (`Tx.exec_congr`,
`Tx.exec_frame`), and `Toolbridge.Service.Isolation` lifts it to the handlers.
-/

namespace Toolbridge

/-- Two stores agree on owner `u`: the same rows of `u` in every table, in the same order,
and the same owner state of `u`. -/
structure Agree (u : String) (db₁ db₂ : Db) : Prop where
  rows : ∀ k, (db₁.tables k).ownedBy u = (db₂.tables k).ownedBy u
  state : db₁.ownerState u = db₂.ownerState u

namespace Agree

variable {u : String} {db₁ db₂ db₃ : Db}

@[refl] theorem refl (u : String) (db : Db) : Agree u db db := ⟨fun _ => rfl, rfl⟩

@[symm] theorem symm (h : Agree u db₁ db₂) : Agree u db₂ db₁ :=
  ⟨fun k => (h.rows k).symm, h.state.symm⟩

@[trans] theorem trans (h₁ : Agree u db₁ db₂) (h₂ : Agree u db₂ db₃) : Agree u db₁ db₃ :=
  ⟨fun k => (h₁.rows k).trans (h₂.rows k), h₁.state.trans h₂.state⟩

/-- Replacing one table by tables that agree keeps the agreement. -/
theorem setTable (h : Agree u db₁ db₂) {k : Kind} {t₁ t₂ : Table} (ht : t₁.ownedBy u = t₂.ownedBy u) :
    Agree u (db₁.setTable k t₁) (db₂.setTable k t₂) :=
  ⟨fun k' => by by_cases hk : k' = k <;> simp [hk, ht, h.rows k'], h.state⟩

/-- Replacing one table by one with the same rows of `u` keeps the store's agreement. -/
theorem setTable_self {db : Db} {k : Kind} {t : Table} (ht : t.ownedBy u = (db.tables k).ownedBy u) :
    Agree u db (db.setTable k t) :=
  ⟨fun k' => by by_cases hk : k' = k <;> simp [hk, ht], rfl⟩

end Agree

/-! ## The rows of one owner in one table -/

namespace Table

variable {t t₁ t₂ : Table} {o : String}

/-- The row under a key of `o` is found among `o`'s rows. -/
theorem find_eq_find?_ownedBy (t : Table) (o : String) (u : Uuid) :
    t.find o u = (t.ownedBy o).find? fun r => r.key = (o, u) := by
  unfold find ownedBy
  induction t.rows with
  | nil => rfl
  | cons x xs ih =>
    by_cases hx : x.ownerId = o
    · simp [List.find?_cons, List.filter_cons, hx, ih]
    · have : ¬ x.key = (o, u) := fun h => hx (congrArg Prod.fst h)
      simp [List.find?_cons, List.filter_cons, hx, this, ih]

theorem find_congr (h : t₁.ownedBy o = t₂.ownedBy o) (u : Uuid) : t₁.find o u = t₂.find o u := by
  rw [find_eq_find?_ownedBy, find_eq_find?_ownedBy, h]

/-- The scan from a cursor reads `o`'s rows only. -/
theorem above_eq_ownedBy (t : Table) (o : String) (cur : Cursor) :
    t.above o cur = ((t.ownedBy o).filter fun r => cur < r.cursor).insertionSort
      fun a b => a.cursor ≤ b.cursor := by
  simp only [above, ownedBy, List.filter_filter, Bool.decide_and, Bool.and_comm]

theorem above_congr (h : t₁.ownedBy o = t₂.ownedBy o) (cur : Cursor) : t₁.above o cur = t₂.above o cur := by
  rw [above_eq_ownedBy, above_eq_ownedBy, h]

/-- The replacement `put` makes keeps the owner of a row. -/
theorem owner_replace {r x : Row} : (if x.key = r.key then r else x).ownerId = x.ownerId := by
  split
  · rename_i h; exact (congrArg Prod.fst h).symm
  · rfl

theorem owner_comp_replace (r : Row) (o : String) :
    ((fun x : Row => decide (x.ownerId = o)) ∘ fun x => if x.key = r.key then r else x) =
      fun x => decide (x.ownerId = o) := by
  funext x; simp only [Function.comp_apply, owner_replace]

/-- Writing a row of `r.ownerId`: `r.ownerId`'s rows are updated in place, or `r` is appended. -/
theorem ownedBy_put_self (t : Table) (r : Row) :
    (t.put r).ownedBy r.ownerId =
      if (t.ownedBy r.ownerId).any fun x => x.key = r.key then
        (t.ownedBy r.ownerId).map fun x => if x.key = r.key then r else x
      else t.ownedBy r.ownerId ++ [r] := by
  have hany : ((t.ownedBy r.ownerId).any fun x => x.key = r.key) = t.rows.any fun x => x.key = r.key := by
    simp only [ownedBy, List.any_filter]
    congr 1
    funext x
    by_cases h : x.key = r.key
    · have ho : x.ownerId = r.ownerId := congrArg Prod.fst h
      simp [h, ho]
    · simp [h]
  rw [hany]
  unfold put ownedBy
  split
  · rename_i h
    simp only [h, if_true, List.filter_map, owner_comp_replace]
  · rename_i h
    simp [h, List.filter_append]

theorem ownedBy_put_congr (h : t₁.ownedBy r.ownerId = t₂.ownedBy r.ownerId) :
    (t₁.put r).ownedBy r.ownerId = (t₂.put r).ownedBy r.ownerId := by
  rw [ownedBy_put_self, ownedBy_put_self, h]

/-- Writing a row of another owner leaves `o`'s rows. -/
theorem ownedBy_put_of_ne {r : Row} (h : r.ownerId ≠ o) : (t.put r).ownedBy o = t.ownedBy o := by
  unfold put ownedBy
  split
  · rw [List.filter_map, owner_comp_replace]
    conv_rhs => rw [← List.map_id (List.filter _ t.rows)]
    refine List.map_congr_left fun x hx => ?_
    have hxo : x.ownerId = o := by simpa using (List.mem_filter.mp hx).2
    have hk : ¬ x.key = r.key := fun hk => h ((congrArg Prod.fst hk).symm.trans hxo)
    simp [hk]
  · simp [List.filter_append, h]

theorem ownedBy_setPayload (t : Table) (o' : String) (u : Uuid) (g : Json → Json) (o : String) :
    (t.setPayload o' u g).ownedBy o = (t.ownedBy o).map fun r =>
      if r.key = (o', u) then { r with payloadJson := g r.payloadJson } else r := by
  unfold setPayload ownedBy
  rw [List.filter_map]
  congr 1
  congr 1
  funext r
  simp only [Function.comp_apply]
  split <;> rfl

/-- Rewriting a payload of another owner leaves `o`'s rows. -/
theorem ownedBy_setPayload_of_ne {o' : String} (h : o' ≠ o) (u : Uuid) (g : Json → Json) :
    (t.setPayload o' u g).ownedBy o = t.ownedBy o := by
  rw [ownedBy_setPayload]
  conv_rhs => rw [← List.map_id (t.ownedBy o)]
  refine List.map_congr_left fun r hr => ?_
  have hk : ¬ r.key = (o', u) := fun hk => h ((congrArg Prod.fst hk).symm.trans (mem_ownedBy.mp hr).2)
  simp [hk]

end Table

/-! ## Statements -/

/-- The outcomes of one statement on two stores agree on `u`: the same error, or the same
result on stores that agree on `u`. -/
def ResultAgree {α : Type} (u : String) : Except String (α × Db) → Except String (α × Db) → Prop
  | .ok (a₁, db₁), .ok (a₂, db₂) => a₁ = a₂ ∧ Agree u db₁ db₂
  | .error e₁, .error e₂ => e₁ = e₂
  | _, _ => False

/-- A statement of owner `u`: its outcome depends on `u`'s data alone, and it leaves every
other owner's data as it was. -/
structure Scoped {α : Type} (u : String) (q : Stmt α) : Prop where
  congr : ∀ {db₁ db₂ : Db}, Agree u db₁ db₂ → ResultAgree u (q db₁) (q db₂)
  frame : ∀ {db db' : Db} {a : α} {v : String}, v ≠ u → q db = .ok (a, db') → Agree v db db'

variable {u : String}

/-- A query that reads `u`'s data and writes nothing. -/
theorem Scoped.read {α : Type} {F : Db → α} (hF : ∀ {db₁ db₂ : Db}, Agree u db₁ db₂ → F db₁ = F db₂) :
    Scoped u fun db => .ok (F db, db) :=
  ⟨fun h => ⟨hF h, h⟩, fun _ h => by cases h; rfl⟩

/-- The congruence of a scoped statement, as the two outcomes a proof cases on. -/
theorem Scoped.outcomes {α : Type} {q : Stmt α} (hq : Scoped u q) {db₁ db₂ : Db} (h : Agree u db₁ db₂) :
    (∃ e, q db₁ = .error e ∧ q db₂ = .error e) ∨
      ∃ a d₁ d₂, q db₁ = .ok (a, d₁) ∧ q db₂ = .ok (a, d₂) ∧ Agree u d₁ d₂ := by
  have hc := hq.congr h
  rcases h₁ : q db₁ with _ | ⟨a₁, d₁⟩ <;> rcases h₂ : q db₂ with _ | ⟨a₂, d₂⟩ <;>
    rw [h₁, h₂] at hc <;> simp only [ResultAgree] at hc
  · exact .inl ⟨_, rfl, by rw [hc]⟩
  · exact .inr ⟨_, _, _, rfl, by rw [hc.1], hc.2⟩

theorem readBackStmt_scoped (k : Kind) (uid : Uuid) : Scoped u (readBackStmt k u uid) :=
  Scoped.read fun h => by rw [Table.find_congr (h.rows k)]

theorem liveRowStmt_scoped (k : Kind) (uid : Uuid) : Scoped u (liveRowStmt k u uid) :=
  Scoped.read fun h => by simp only [Table.isLive, Table.find_congr (h.rows k)]

theorem probeStmt_scoped (uid : Uuid) : Scoped u (probeStmt u uid) :=
  Scoped.read fun h => by rw [Table.find_congr (h.rows _)]

theorem selectEpochStmt_scoped : Scoped u (selectEpochStmt u) :=
  Scoped.read fun h => by rw [h.state]

theorem upsertStmt_scoped (k : Kind) {new : Row} (hn : new.ownerId = u) : Scoped u (upsertStmt k new) := by
  subst hn
  constructor
  · intro db₁ db₂ h
    simp only [upsertStmt, Table.upsert, Table.find_congr (h.rows k)]
    cases hr : lwwRow ((db₂.tables k).find new.ownerId new.uid) new with
    | error e => rfl
    | ok r =>
      have hru : r.ownerId = new.ownerId := congrArg Prod.fst (lwwRow_find_key hr)
      refine ⟨rfl, h.setTable ?_⟩
      rw [← hru]; exact Table.ownedBy_put_congr (by rw [hru]; exact h.rows k)
  · intro db db' a v hv hq
    obtain ⟨r, hr, rfl⟩ := upsertStmt_eq_ok.mp hq
    have hru : r.ownerId = new.ownerId := congrArg Prod.fst (lwwRow_find_key hr)
    exact Agree.setTable_self (Table.ownedBy_put_of_ne (by rw [hru]; exact Ne.symm hv))

theorem patchVersionStmt_scoped (v : Int) (uid : Uuid) : Scoped u (patchVersionStmt v u uid) := by
  constructor
  · intro db₁ db₂ h
    exact ⟨rfl, h.setTable (by rw [Table.ownedBy_setPayload, Table.ownedBy_setPayload, h.rows])⟩
  · intro db db' a o ho hq
    cases hq
    exact Agree.setTable_self (Table.ownedBy_setPayload_of_ne (Ne.symm ho) _ _)

theorem deleteOwnedStmt_scoped (k : Kind) : Scoped u (deleteOwnedStmt k u) := by
  constructor
  · intro db₁ db₂ h
    exact ⟨by rw [h.rows k], h.setTable (by rw [Table.ownedBy_filter, Table.ownedBy_filter, h.rows])⟩
  · intro db db' a o ho hq
    cases hq
    refine Agree.setTable_self ?_
    rw [Table.ownedBy_filter]
    exact List.filter_eq_self.mpr fun r hr => by simp [(Table.mem_ownedBy.mp hr).2, ho]

theorem Agree.setOwnerState {db₁ db₂ : Db} (h : Agree u db₁ db₂) (st : OwnerState) :
    Agree u (db₁.setOwnerState u st) (db₂.setOwnerState u st) :=
  ⟨fun k => by simp [h.rows k], by simp⟩

theorem Agree.setOwnerState_other {db : Db} {o : String} (ho : o ≠ u) (st : OwnerState) :
    Agree o db (db.setOwnerState u st) :=
  ⟨fun _ => rfl, by simp [ho]⟩

theorem initEpochStmt_scoped : Scoped u (initEpochStmt u) := by
  constructor
  · intro db₁ db₂ h
    simp only [initEpochStmt, h.state]
    split
    · exact ⟨rfl, h⟩
    · exact ⟨rfl, h.setOwnerState _⟩
  · intro db db' a o ho hq
    simp only [initEpochStmt] at hq
    split at hq <;> cases hq
    · rfl
    · exact Agree.setOwnerState_other ho _

theorem bumpEpochStmt_scoped (now : Int) : Scoped u (bumpEpochStmt u now) := by
  constructor
  · intro db₁ db₂ h
    simp only [bumpEpochStmt, h.state]
    split
    · exact ⟨rfl, h.setOwnerState _⟩
    · split
      · exact ⟨rfl, h.setOwnerState _⟩
      · rfl
  · intro db db' a o ho hq
    simp only [bumpEpochStmt] at hq
    split at hq
    · cases hq; exact Agree.setOwnerState_other ho _
    · split at hq
      · cases hq; exact Agree.setOwnerState_other ho _
      · cases hq

/-! ## Transactions -/

/-- Two transactions agree on `u`: their stores do, and they are as far along and as
aborted as each other. -/
structure TxAgree (u : String) (t₁ t₂ : Tx) : Prop where
  db : Agree u t₁.db t₂.db
  aborted : t₁.aborted = t₂.aborted
  stmt : t₁.stmt = t₂.stmt

theorem TxAgree.begin {db₁ db₂ : Db} (h : Agree u db₁ db₂) : TxAgree u (Tx.begin db₁) (Tx.begin db₂) :=
  ⟨h, rfl, rfl⟩

variable {α : Type} {q : Stmt α} {f : Faults}

theorem Tx.exec_congr (hq : Scoped u q) {t₁ t₂ : Tx} (h : TxAgree u t₁ t₂) :
    (t₁.exec f q).1 = (t₂.exec f q).1 ∧ TxAgree u (t₁.exec f q).2 (t₂.exec f q).2 := by
  obtain ⟨hdb, ha, hs⟩ := h
  unfold Tx.exec
  rw [ha, hs]
  split
  · exact ⟨rfl, hdb, rfl, rfl⟩
  split
  · exact ⟨rfl, hdb, rfl, rfl⟩
  rcases hq.outcomes hdb with ⟨e, e₁, e₂⟩ | ⟨a, d₁, d₂, e₁, e₂, h'⟩ <;> simp only [e₁, e₂, true_and]
  · exact ⟨hdb, rfl, rfl⟩
  · exact ⟨h', rfl, rfl⟩

theorem Tx.exec_frame (hq : Scoped u q) {v : String} (hv : v ≠ u) (t : Tx) :
    Agree v t.db (t.exec f q).2.db := by
  rcases h : t.exec f q with ⟨_ | a, t'⟩
  · rw [(Tx.exec_eq_error h).2]
  · obtain ⟨-, -, db, hdb, rfl⟩ := Tx.exec_eq_ok.mp h
    exact hq.frame hv hdb

/-- Two transactions that agree on `u` commit alike: both publish their stores, or both fail
with the same error. -/
theorem TxAgree.commit {t₁ t₂ : Tx} (h : TxAgree u t₁ t₂) (f : Faults) :
    (t₁.commit f = .ok t₁.db ∧ t₂.commit f = .ok t₂.db) ∨
      ∃ e, t₁.commit f = .error e ∧ t₂.commit f = .error e := by
  unfold Tx.commit
  rw [h.aborted, h.stmt]
  split
  · exact .inr ⟨_, rfl, rfl⟩
  split
  · exact .inr ⟨_, rfl, rfl⟩
  · exact .inl ⟨rfl, rfl⟩

/-- A transaction step of owner `u` (a statement, or a function of the service that runs
several): what it answers and how it leaves the transaction depend on `u`'s data alone,
and it leaves every other owner's data as it was. -/
structure TxScoped {β : Type} (u : String) (F : Tx → β × Tx) : Prop where
  congr : ∀ {t₁ t₂ : Tx}, TxAgree u t₁ t₂ → (F t₁).1 = (F t₂).1 ∧ TxAgree u (F t₁).2 (F t₂).2
  frame : ∀ {v : String} (t : Tx), v ≠ u → Agree v t.db (F t).2.db

namespace TxScoped

variable {β γ : Type} {F : Tx → β × Tx}

theorem exec (hq : Scoped u q) : TxScoped u fun t => t.exec f q :=
  ⟨Tx.exec_congr hq, fun t hv => Tx.exec_frame hq hv t⟩

theorem pure (b : β) : TxScoped u fun t => (b, t) :=
  ⟨fun h => ⟨rfl, h⟩, fun _ _ => Agree.refl _ _⟩

/-- Running `G` on what `F` answered. -/
theorem bind {G : β → Tx → γ × Tx} (hF : TxScoped u F) (hG : ∀ b, TxScoped u (G b)) :
    TxScoped u fun t => G (F t).1 (F t).2 := by
  refine ⟨fun h => ?_, fun t hv => (hF.frame t hv).trans ((hG _).frame _ hv)⟩
  obtain ⟨he, h'⟩ := hF.congr h
  rw [he]
  exact (hG _).congr h'

theorem map (hF : TxScoped u F) (g : β → γ) : TxScoped u fun t => (g (F t).1, (F t).2) :=
  ⟨fun h => ⟨by rw [(hF.congr h).1], (hF.congr h).2⟩, hF.frame⟩

/-- The congruence of a scoped step, as the two outcomes a proof cases on. -/
theorem outcomes (hF : TxScoped u F) {t₁ t₂ : Tx} (h : TxAgree u t₁ t₂) :
    ∃ b t₁' t₂', F t₁ = (b, t₁') ∧ F t₂ = (b, t₂') ∧ TxAgree u t₁' t₂' :=
  ⟨_, _, _, rfl, by rw [(hF.congr h).1], (hF.congr h).2⟩

/-- The frame of a scoped step, as the outcome a proof cases on. -/
theorem outcome (hF : TxScoped u F) {v : String} (t : Tx) (hv : v ≠ u) :
    ∃ b t', F t = (b, t') ∧ Agree v t.db t'.db :=
  ⟨_, _, rfl, hF.frame t hv⟩

end TxScoped

/-! ## Handlers -/

/-- A handler of owner `u` on the database: its answer, and what it leaves of `u`'s data,
depend on `u`'s data alone, and it leaves every other owner's data as it was. -/
structure DbScoped {β : Type} (u : String) (F : Db → β × Db) : Prop where
  congr : ∀ {db₁ db₂ : Db}, Agree u db₁ db₂ → (F db₁).1 = (F db₂).1 ∧ Agree u (F db₁).2 (F db₂).2
  frame : ∀ {v : String} (db : Db), v ≠ u → Agree v db (F db).2

namespace DbScoped

variable {β γ : Type}

/-- A handler that reads `u`'s data and writes nothing. -/
theorem read {R : Db → β} (hR : ∀ {db₁ db₂ : Db}, Agree u db₁ db₂ → R db₁ = R db₂) :
    DbScoped u fun db => (R db, db) :=
  ⟨fun h => ⟨hR h, h⟩, fun _ _ => Agree.refl _ _⟩

/-- A transaction from `BEGIN` to `COMMIT` that answers `K` of what its steps answered, or
`E` with nothing published when the commit fails. -/
theorem commit {F : Tx → β × Tx} (hF : TxScoped u F) (f : Faults) (E : γ) (K : β → γ) :
    DbScoped u fun db => match (F (Tx.begin db)).2.commit f with
      | .error _ => (E, db)
      | .ok db' => (K (F (Tx.begin db)).1, db') := by
  refine ⟨fun h => ?_, fun db hv => ?_⟩
  · obtain ⟨e, h'⟩ := hF.congr (TxAgree.begin h)
    rcases h'.commit f with ⟨c₁, c₂⟩ | ⟨_, c₁, c₂⟩ <;> simp only [c₁, c₂, e, true_and]
    · exact h'.db
    · exact h
  · rcases hc : (F (Tx.begin db)).2.commit f with _ | db'
    · exact Agree.refl _ _
    · obtain ⟨-, -, rfl⟩ := Tx.commit_eq_ok.mp hc
      exact hF.frame (Tx.begin db) hv

theorem outcomes {F : Db → β × Db} (hF : DbScoped u F) {db₁ db₂ : Db}
    (h : Agree u db₁ db₂) : ∃ b d₁ d₂, F db₁ = (b, d₁) ∧ F db₂ = (b, d₂) ∧ Agree u d₁ d₂ :=
  ⟨_, _, _, rfl, by rw [(hF.congr h).1], (hF.congr h).2⟩

end DbScoped

/-- A handler of owner `u` on the server: its answer, and what it leaves of `u`'s data, depend
on `u`'s data alone (not on the session store), and it leaves every other owner's data as it
was. -/
structure ServerScoped {β : Type} (u : String) (F : Server → β × Server) : Prop where
  congr : ∀ {s₁ s₂ : Server}, Agree u s₁.db s₂.db → (F s₁).1 = (F s₂).1 ∧ Agree u (F s₁).2.db (F s₂).2.db
  frame : ∀ {v : String} (s : Server), v ≠ u → Agree v s.db (F s).2.db

/-- A handler on the database, run on the server's. -/
theorem DbScoped.server {β : Type} {F : Db → β × Db} (hF : DbScoped u F) :
    ServerScoped u fun s => ((F s.db).1, { s with db := (F s.db).2 }) :=
  ⟨hF.congr, fun s hv => hF.frame s.db hv⟩

end Toolbridge
