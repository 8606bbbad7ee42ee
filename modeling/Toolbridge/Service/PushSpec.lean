import Toolbridge.Service.Push

/-!
# What one push does

The inversion lemmas of the push path, stated once so that the results about batches never
unfold it:

* an item acked without error was extracted, validated and marshalled, and its
  transaction now sees the table of its kind with the row LWW leaves (`pushItem_ok`);
* an item acked with an error changed nothing its transaction sees, unless a statement
  failed and aborted the transaction (`pushItem_error`);
* a push never revives an aborted transaction (`pushItem_live`).
-/

namespace Toolbridge

/-! ## Statements -/

/-- The database after the upsert of `new` into kind `k` left row `r`. -/
def Db.lwwPut (db : Db) (k : Kind) (r : Row) : Db := db.setTable k ((db.tables k).put r)

theorem Db.find_lwwPut (db : Db) (k k' : Kind) (r : Row) (o : String) (u : Uuid) :
    ((db.lwwPut k r).tables k').find o u =
      if k' = k ∧ r.key = (o, u) then some r else (db.tables k').find o u := by
  by_cases hk : k' = k
  · subst hk; simp [Db.lwwPut]
  · simp [Db.lwwPut, hk]

theorem upsertStmt_eq_ok {k : Kind} {new : Row} {db db' : Db} {u : Unit} :
    upsertStmt k new db = .ok (u, db') ↔
      ∃ r, lwwRow ((db.tables k).find new.ownerId new.uid) new = .ok r ∧ db' = db.lwwPut k r := by
  simp only [upsertStmt, Table.upsert, Db.lwwPut]
  cases lwwRow ((db.tables k).find new.ownerId new.uid) new <;>
    simp [Except.map, eq_comm]

theorem upsertStmt_error {k : Kind} {new : Row} {db : Db} {e : String}
    (h : upsertStmt k new db = .error e) : e = outOfRangeError := by
  simp only [upsertStmt, Table.upsert] at h
  cases hr : lwwRow ((db.tables k).find new.ownerId new.uid) new with
  | error e' => simp only [hr, Except.map, Except.error.injEq] at h; rw [← h]; exact lwwRow_error hr
  | ok r => simp [hr, Except.map] at h

theorem length_pos_append {a b : String} (h : 0 < a.length) : 0 < (a ++ b).length := by
  rw [String.length_append]; omega

/-- A text that starts with a non-empty text is not empty. -/
theorem append_ne_empty {a b : String} (h : 0 < a.length) : a ++ b ≠ "" := by
  intro hab
  have := congrArg String.length hab
  simp only [String.length_append] at this
  exact absurd this (by simp; omega)

/-- A statement error is the abort error, the injected fault, or the statement's own. -/
theorem exec_error_cases {α : Type} {f : Faults} {t t' : Tx} {q : Stmt α} {e : String}
    (h : t.exec f q = (.error e, t')) :
    e = txAbortedError ∨ e = faultError ∨ q t.db = .error e := by
  unfold Tx.exec at h
  split at h
  · exact .inl (Except.error.inj (Prod.mk.inj h).1).symm
  · split at h
    · exact .inr (.inl (Except.error.inj (Prod.mk.inj h).1).symm)
    · split at h
      · cases (Prod.mk.inj h).1
      · rename_i e' hq
        exact .inr (.inr (by rw [hq, Except.error.inj (Prod.mk.inj h).1]))

theorem upsert_exec_error_ne_empty {f : Faults} {t t' : Tx} {k : Kind} {new : Row} {e : String}
    (h : t.exec f (upsertStmt k new) = (.error e, t')) : e ≠ "" := by
  rcases exec_error_cases h with rfl | rfl | h
  · decide
  · decide
  · rw [upsertStmt_error h]; decide

/-! ## Parent validation -/

section checkParent

variable (f : Faults) (t : Tx) (k : Kind) (userID : String) (u : Uuid) (failed missing : String)

/-- The parent probe reads and never writes. -/
theorem checkParent_eq : checkParent f t k userID u failed missing =
    if t.aborted then (some failed, { t with stmt := t.stmt + 1 })
    else if f t.stmt then (some failed, { t with aborted := true, stmt := t.stmt + 1 })
    else (if (t.db.tables k).isLive userID u then none else some missing,
      { t with stmt := t.stmt + 1 }) := by
  unfold checkParent Tx.exec liveRowStmt
  split_ifs <;> simp_all

theorem checkParent_db : (checkParent f t k userID u failed missing).2.db = t.db := by
  rw [checkParent_eq]; split_ifs <;> rfl

theorem checkParent_live (h : (checkParent f t k userID u failed missing).2.aborted = false) :
    t.aborted = false := by
  rw [checkParent_eq] at h; split_ifs at h <;> simp_all

theorem checkParent_none (h : (checkParent f t k userID u failed missing).1 = none) :
    (checkParent f t k userID u failed missing).2.aborted = t.aborted := by
  rw [checkParent_eq] at h ⊢; split_ifs at h ⊢; rfl

theorem checkParent_error {e : String} (hf : failed ≠ "") (hm : missing ≠ "")
    (h : (checkParent f t k userID u failed missing).1 = some e) : e ≠ "" := by
  rw [checkParent_eq] at h; split_ifs at h <;> simp_all

theorem checkParent_none_isLive (h : (checkParent f t k userID u failed missing).1 = none) :
    (t.db.tables k).isLive userID u = true := by
  rw [checkParent_eq] at h; split_ifs at h with _ _ hlive; exact hlive

theorem checkParent_some_isLive {e : String}
    (h : (checkParent f t k userID u failed missing).1 = some e)
    (ha : (checkParent f t k userID u failed missing).2.aborted = false) :
    (t.db.tables k).isLive userID u = false := by
  rw [checkParent_eq] at h ha; split_ifs at h ha <;> simp_all

end checkParent

/-- The verdict of the parent checks on the store `db` when no round trip is lost. -/
def parentOk (db : Db) (userID : String) (ext : Extracted) : ParentRef → Bool
  | .none => true
  | .chat cu => ext.deletedAtMs.isSome || (db.tables .chat).isLive userID cu
  | .parent ty pu => (ty == "note" || ty == "task") &&
      (ext.deletedAtMs.isSome || (db.tables (if ty = "note" then .note else .task)).isLive userID pu)

/-- The verdict reads only the table the parent reference points into. -/
theorem parentOk_congr {db db' : Db} {userID : String} {ext : Extracted} {p : ParentRef}
    (h : ∀ k, p.table = some k → db'.tables k = db.tables k) :
    parentOk db' userID ext p = parentOk db userID ext p := by
  cases p with
  | none => rfl
  | chat cu => simp [parentOk, h .chat rfl]
  | parent ty pu => simp [parentOk, h (if ty = "note" then .note else .task) rfl]

section validateParent

variable (f : Faults) (t : Tx) (userID : String) (ext : Extracted)

theorem validateParent_db (p : ParentRef) : (validateParent f t userID ext p).2.db = t.db := by
  cases p <;> simp only [validateParent] <;> split_ifs <;> simp [checkParent_db]

theorem validateParent_live (p : ParentRef) (h : (validateParent f t userID ext p).2.aborted = false) :
    t.aborted = false := by
  cases p <;> simp only [validateParent] at h <;> (try split_ifs at h) <;>
    first | exact h | exact checkParent_live _ _ _ _ _ _ _ h

theorem validateParent_error (p : ParentRef) {e : String}
    (h : (validateParent f t userID ext p).1 = some e) : e ≠ "" := by
  cases p <;> simp only [validateParent] at h <;> (try split_ifs at h) <;>
    first
    | (cases h; done)
    | exact checkParent_error _ _ _ _ _ _ _ (by decide) (append_ne_empty (by decide)) h
    | exact checkParent_error _ _ _ _ _ _ _ (by decide)
        (append_ne_empty (length_pos_append (length_pos_append (by decide)))) h
    | (cases h; exact append_ne_empty (length_pos_append (by decide)))

theorem validateParent_ok (p : ParentRef) (h : (validateParent f t userID ext p).1 = none) :
    parentOk t.db userID ext p = true := by
  cases p with
  | none => rfl
  | chat cu =>
    simp only [validateParent] at h
    split_ifs at h with hd
    · simp [parentOk, hd]
    · simp [parentOk, checkParent_none_isLive _ _ _ _ _ _ _ h]
  | parent ty pu =>
    simp only [validateParent] at h
    by_cases hty : ty ≠ "note" ∧ ty ≠ "task"
    · rw [if_pos hty] at h; cases h
    have hty' : (ty == "note" || ty == "task") = true := by
      simp only [not_and_or, not_not] at hty; simpa using hty
    rw [if_neg hty] at h
    by_cases hd : ext.deletedAtMs.isSome
    · simp [parentOk, hty', hd]
    · rw [if_neg hd] at h; simp [parentOk, hty', checkParent_none_isLive _ _ _ _ _ _ _ h]

theorem validateParent_rejects (p : ParentRef) {e : String}
    (h : (validateParent f t userID ext p).1 = some e)
    (ha : (validateParent f t userID ext p).2.aborted = false) :
    parentOk t.db userID ext p = false := by
  cases p with
  | none => cases h
  | chat cu =>
    simp only [validateParent] at h ha
    split_ifs at h ha with hd
    · simp [parentOk, hd, checkParent_some_isLive _ _ _ _ _ _ _ h ha]
  | parent ty pu =>
    simp only [validateParent] at h ha
    by_cases hty : ty ≠ "note" ∧ ty ≠ "task"
    · simp [parentOk, hty.1, hty.2]
    rw [if_neg hty] at h ha
    by_cases hd : ext.deletedAtMs.isSome
    · rw [if_pos hd] at h; cases h
    rw [if_neg hd] at h ha
    simp [parentOk, hd, checkParent_some_isLive _ _ _ _ _ _ _ h ha]

/-- Checks that pass leave the transaction as live as they found it. -/
theorem validateParent_none_aborted (p : ParentRef) (h : (validateParent f t userID ext p).1 = none) :
    (validateParent f t userID ext p).2.aborted = t.aborted := by
  cases p <;> simp only [validateParent] at h ⊢ <;> (try split_ifs at h ⊢) <;>
    first | rfl | cases h | exact checkParent_none _ _ _ _ _ _ _ h

/-- With no round trip lost, the parent checks leave a live transaction live. -/
theorem validateParent_nofault (hf : ∀ n, f n = false) (ht : t.aborted = false) (p : ParentRef) :
    (validateParent f t userID ext p).2.aborted = false := by
  cases p <;> simp only [validateParent] <;> (try split_ifs) <;>
    simp [checkParent_eq, ht, hf]

end validateParent

/-! ## The write half -/

/-- The row LWW leaves for an item sits under the item's key. -/
theorem lwwRow_toRow_key {tb : Table} {userID : String} {ext : Extracted} {payload : Json}
    {p : ParentRef} {r : Row}
    (hr : lwwRow (tb.find userID ext.uid) (ext.toRow userID payload p) = .ok r) :
    r.key = (userID, ext.uid) :=
  @lwwRow_find_key tb (ext.toRow userID payload p) r hr

/-- After the upsert, the read-back finds the row the upsert left. -/
theorem readBackStmt_lwwPut {db : Db} {k : Kind} {r : Row} {o : String} {u : Uuid}
    (hk : r.key = (o, u)) :
    readBackStmt k o u (db.lwwPut k r) = .ok (some (r.version, r.updatedAtMs), db.lwwPut k r) := by
  simp [readBackStmt, Db.lwwPut, hk]

section writeItem

variable (k : Kind) (f : Faults) (t : Tx) (userID : String) (item : Json) (ext : Extracted)
  (p : ParentRef)

/-- What an accepted write does: the transaction sees the row LWW leaves, and the ack
carries that row's version and timestamp. -/
theorem writeItem_ok (h : (writeItem k f t userID item ext p).1.error = "") :
    t.aborted = false ∧ ∃ payload r, jsonMarshal item = .ok payload ∧ fitsInt4 ext.version = true ∧
      lwwRow ((t.db.tables k).find userID ext.uid) (ext.toRow userID payload p) = .ok r ∧
      writeItem k f t userID item ext p =
        (⟨ext.uid.toString, r.version, some (rfc3339 r.updatedAtMs), ""⟩,
          ⟨t.db.lwwPut k r, false, t.stmt + 2⟩) := by
  cases hm : jsonMarshal item with
  -- the payload and the version must bind, or the ack carries their error
  | error e => simp [writeItem, hm, Extracted.ackError] at h
  | ok payload =>
    by_cases hv : fitsInt4 ext.version = true
    swap
    · simp [writeItem, hm, hv, Extracted.ackError, int4EncodeError] at h
    -- the upsert went through and left `r`
    rcases hu : t.exec f (upsertStmt k (ext.toRow userID payload p)) with ⟨_ | ⟨⟩, t1⟩
    · simp only [writeItem, hm, hv, hu, Bool.not_true, Bool.false_eq_true, if_false,
        Extracted.ackError] at h
      exact absurd h (upsert_exec_error_ne_empty hu)
    obtain ⟨ha, -, db1, hq, rfl⟩ := Tx.exec_eq_ok.mp hu
    obtain ⟨r, hr, rfl⟩ := upsertStmt_eq_ok.mp hq
    refine ⟨ha, payload, r, rfl, hv, hr, ?_⟩
    have hrb := @readBackStmt_lwwPut t.db k r userID ext.uid
      (lwwRow_find_key hr)
    -- the read-back went through and found `r`
    simp only [writeItem, hm, hv, hu, Bool.not_true, Bool.false_eq_true, if_false] at h ⊢
    by_cases hf1 : f (t.stmt + 1) = true
    · simp [Tx.exec, hf1, Extracted.ackError] at h
    · simp [Tx.exec, hf1, hrb]

/-- An accepted write sent its upsert: its round trip went through. -/
theorem writeItem_ok_sent (h : (writeItem k f t userID item ext p).1.error = "") : f t.stmt = false := by
  obtain ⟨ha, payload, -, hm, hv, -, -⟩ := writeItem_ok _ _ _ _ _ _ _ h
  cases hf : f t.stmt
  · rfl
  · simp [writeItem, hm, hv, Tx.exec, ha, hf, Extracted.ackError, faultError] at h

/-- A write that reports an error and leaves the transaction live changed nothing: the
payload could not be marshalled or the version does not fit the `int4` parameter. -/
theorem writeItem_error (h : (writeItem k f t userID item ext p).1.error ≠ "")
    (ha : (writeItem k f t userID item ext p).2.aborted = false) :
    (writeItem k f t userID item ext p).2.db = t.db ∧
      ∀ payload, jsonMarshal item = .ok payload → fitsInt4 ext.version = false := by
  cases hm : jsonMarshal item with
  | error e => simp [writeItem, hm]
  | ok payload =>
    by_cases hv : fitsInt4 ext.version = true
    swap
    · simp [writeItem, hm, hv]
    rcases hu : t.exec f (upsertStmt k (ext.toRow userID payload p)) with ⟨_ | ⟨⟩, t1⟩
    · simp [writeItem, hm, hv, hu, (Tx.exec_eq_error hu).1] at ha
    obtain ⟨-, -, db1, hq, rfl⟩ := Tx.exec_eq_ok.mp hu
    obtain ⟨r, hr, rfl⟩ := upsertStmt_eq_ok.mp hq
    have hrb := @readBackStmt_lwwPut t.db k r userID ext.uid
      (lwwRow_find_key hr)
    simp only [writeItem, hm, hv, hu, Bool.not_true, Bool.false_eq_true, if_false] at h ha ⊢
    by_cases hf1 : f (t.stmt + 1) = true
    · simp [Tx.exec, hf1] at ha
    · simp [Tx.exec, hf1, hrb] at h

/-- A write never revives an aborted transaction. -/
theorem writeItem_live (h : (writeItem k f t userID item ext p).2.aborted = false) :
    t.aborted = false := by
  unfold writeItem at h
  cases hm : jsonMarshal item with
  | error e => simpa [hm] using h
  | ok payload =>
    simp only [hm] at h
    by_cases hv : fitsInt4 ext.version = true
    · simp only [hv, Bool.not_true, Bool.false_eq_true, if_false] at h
      rcases hu : t.exec f (upsertStmt k (ext.toRow userID payload p)) with ⟨_ | ⟨⟩, t1⟩
      · simp [hu, (Tx.exec_eq_error hu).1] at h
      · exact (Tx.exec_eq_ok.mp hu).1
    · simpa [hv] using h

/-- An aborted transaction's write half never reads the store: every statement is refused. -/
theorem writeItem_aborted (h : t.aborted = true) (db : Db) :
    writeItem k f { t with db := db } userID item ext p =
      ((writeItem k f t userID item ext p).1, { (writeItem k f t userID item ext p).2 with db := db }) := by
  unfold writeItem
  cases jsonMarshal item <;> (try split_ifs) <;> simp [h]

end writeItem

/-! ## The check half -/

section checkItem

variable {d : ItemKind} {f : Faults} {t : Tx} {userID : String} {item : Json}

/-- The checks pass exactly when the header is read and the parent checks pass. -/
theorem checkItem_eq_ok {ext : Extracted} {p : ParentRef} {t' : Tx} :
    checkItem d f t userID item = (.ok (ext, p), t') ↔
      d.extract item = .ok (ext, p) ∧ validateParent f t userID ext p = (none, t') := by
  unfold checkItem
  rcases d.extract item with e | ⟨ext₁, p₁⟩
  · simp
  rcases hv : validateParent f t userID ext₁ p₁ with ⟨_ | e, t₁⟩ <;> simp [hv] <;> aesop

/-- The checks read and never write. -/
theorem checkItem_db : (checkItem d f t userID item).2.db = t.db := by
  unfold checkItem
  rcases d.extract item with e | ⟨ext, p⟩
  · rfl
  have := validateParent_db f t userID ext p
  rcases hv : validateParent f t userID ext p with ⟨_ | e, t₁⟩ <;> simpa [hv] using this

/-- The checks never revive an aborted transaction. -/
theorem checkItem_live (h : (checkItem d f t userID item).2.aborted = false) : t.aborted = false := by
  unfold checkItem at h
  rcases hx : d.extract item with e | ⟨ext, p⟩ <;> simp only [hx] at h
  · exact h
  have := validateParent_live f t userID ext p
  rcases hv : validateParent f t userID ext p with ⟨_ | e, t₁⟩ <;> simp only [hv] at h this <;>
    exact this h

/-- The ack of a rejected item carries an error. -/
theorem checkItem_error {ack : PushAck} {t' : Tx} (h : checkItem d f t userID item = (.error ack, t')) :
    ack.error ≠ "" := by
  unfold checkItem at h
  rcases hx : d.extract item with e | ⟨ext, p⟩ <;> simp only [hx] at h
  · cases h; exact d.extract_error hx
  rcases hv : validateParent f t userID ext p with ⟨_ | e, t₁⟩ <;> simp only [hv] at h
  · cases h
  · cases h; exact validateParent_error f t userID ext p (by rw [hv]; rfl)

/-- An aborted transaction's checks never read the store. -/
theorem checkItem_aborted (h : t.aborted = true) (db : Db) :
    checkItem d f { t with db := db } userID item =
      ((checkItem d f t userID item).1, { (checkItem d f t userID item).2 with db := db }) := by
  unfold checkItem
  rcases d.extract item with e | ⟨ext, p⟩
  · rfl
  cases p <;> simp only [validateParent] <;> (try split_ifs) <;> simp [checkParent, h]

end checkItem


/-! ## One item -/

section pushItem

variable {d : ItemKind} {f : Faults} {t : Tx} {userID : String} {item : Json}

/-- A push never revives an aborted transaction. -/
theorem pushItem_live (h : (pushItem d f t userID item).2.aborted = false) : t.aborted = false := by
  unfold pushItem checkItem at h
  rcases hx : d.extract item with e | ⟨ext, p⟩
  · simpa [hx] using h
  have hl := validateParent_live f t userID ext p
  rcases hv : validateParent f t userID ext p with ⟨_ | e, t1⟩ <;> simp only [hx, hv] at h hl
  · exact hl (writeItem_live _ _ _ _ _ _ _ h)
  · exact hl h

/-- An accepted item was extracted, passed the parent checks and was marshalled, and its
transaction now sees the row LWW leaves. -/
theorem pushItem_ok (h : (pushItem d f t userID item).1.error = "") :
    ∃ ext p payload r, d.extract item = .ok (ext, p) ∧ parentOk t.db userID ext p = true ∧
      jsonMarshal item = .ok payload ∧ fitsInt4 ext.version = true ∧
      lwwRow ((t.db.tables d.table).find userID ext.uid) (ext.toRow userID payload p) = .ok r ∧
      (pushItem d f t userID item).2.db = t.db.lwwPut d.table r ∧
      (pushItem d f t userID item).2.aborted = false := by
  unfold pushItem checkItem at h ⊢
  rcases hx : d.extract item with e | ⟨ext, p⟩
  · simp only [hx] at h; exact absurd h (d.extract_error hx)
  have hdb := validateParent_db f t userID ext p
  have hok := validateParent_ok f t userID ext p
  have herr : ∀ e, _ = some e → e ≠ "" := fun e => validateParent_error f t userID ext p (e := e)
  rcases hv : validateParent f t userID ext p with ⟨_ | e, t1⟩ <;>
    simp only [hx, hv] at h hdb hok herr ⊢
  · obtain ⟨-, payload, r, hm, hfit, hr, heq⟩ := writeItem_ok _ _ _ _ _ _ _ h
    rw [hdb] at hr heq
    exact ⟨ext, p, payload, r, rfl, hdb ▸ hok trivial, hm, hfit, hr, by rw [heq], by rw [heq]⟩
  · exact absurd h (herr _ rfl)

/-- An item rejected while its transaction stays live changed nothing, and was rejected by
a check: its header, its parent, its payload or its version. -/
theorem pushItem_error (h : (pushItem d f t userID item).1.error ≠ "")
    (ha : (pushItem d f t userID item).2.aborted = false) :
    (pushItem d f t userID item).2.db = t.db ∧
      ∀ ext p payload, d.extract item = .ok (ext, p) → jsonMarshal item = .ok payload →
        fitsInt4 ext.version = true → parentOk t.db userID ext p = false := by
  unfold pushItem checkItem at h ha ⊢
  rcases hx : d.extract item with e | ⟨ext, p⟩
  -- a header that does not extract: nothing was run
  · simp [hx]
  have hdb := validateParent_db f t userID ext p
  have hrej : ∀ e, _ = some e → _ → _ := fun e => validateParent_rejects f t userID ext p (e := e)
  rcases hv : validateParent f t userID ext p with ⟨_ | e, t1⟩ <;>
    simp only [hx, hv] at h ha hdb hrej ⊢
  -- the checks passed: the write refused the payload or the version
  · obtain ⟨hw, hfit⟩ := writeItem_error _ _ _ _ _ _ _ h ha
    refine ⟨hw.trans hdb, ?_⟩
    rintro ext' p' payload ⟨⟩ hm hv'
    exact absurd hv' (by rw [hfit payload hm]; decide)
  -- the parent check refused it
  · exact ⟨hdb, by rintro ext' p' payload ⟨⟩ - -; exact hrej _ rfl ha⟩

end pushItem

/-! ## The loop over a batch -/

section pushLoop

variable {d : ItemKind} {f : Faults} {userID : String}

@[simp] theorem pushLoop_nil (t : Tx) : pushLoop d f userID t [] = ([], t) := rfl

theorem pushLoop_cons (t : Tx) (item : Json) (items : List Json) :
    pushLoop d f userID t (item :: items) =
      ((pushItem d f t userID item).1 :: (pushLoop d f userID (pushItem d f t userID item).2 items).1,
        (pushLoop d f userID (pushItem d f t userID item).2 items).2) := rfl

/-- A batch that ends live was live after each of its items. -/
theorem pushLoop_live {t : Tx} {items : List Json}
    (h : (pushLoop d f userID t items).2.aborted = false) : t.aborted = false := by
  induction items generalizing t with
  | nil => exact h
  | cons item items ih => exact pushItem_live (ih h)

end pushLoop

end Toolbridge
