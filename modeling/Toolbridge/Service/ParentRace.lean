import Toolbridge.Service.Pushes

/-!
# Parent checks under concurrent pushes

A comment or a chat message is written only if its parent is live (§5, referential
integrity): the check half of `PushCommentItem` and `PushChatMessageItem` probes the parent
with `SELECT EXISTS(... AND deleted_at_ms IS NULL)`, and the write half then upserts the
child. The probe takes no lock, and the parent's row is in another table than the child's, so
the child's upsert waits for nobody.

* Within one batch the checks still hold at the commit, since a batch writes only its own
  table (`pushHandler_parentOk`).
* Across batches they hold when they ran: in every interleaving (`Toolbridge.Service.Pushes`),
  every child a committed batch acknowledged passed its check on the store as committed at
  one of its own batch's steps (`pushes_parentChecked`). The invariant `ChecksHeld` places
  each check at its step of the schedule, and every step keeps it (`ChecksHeld.step`).
* A batch that tombstones the parent can commit between that step and the child's write, so
  the child commits after its parent is gone (`pushes_orphan_comment`).
-/

namespace Toolbridge

/-! ## Checks within one batch -/

section batch

variable {d : ItemKind} {f : Faults} {userID : String}

/-- A batch writes only its own table, and the parent of its kind lives in another: every
check an accepted item passed is still true of the store the batch ends on. -/
theorem pushLoop_parentOk {t : Tx} {items : List Json}
    (ha : (pushLoop d f userID t items).2.aborted = false) :
    ∀ item ack, (item, ack) ∈ items.zip (pushLoop d f userID t items).1 → ack.error = "" →
      ∀ ext p, d.extract item = .ok (ext, p) →
        parentOk (pushLoop d f userID t items).2.db userID ext p = true := by
  induction items generalizing t with
  | nil => simp
  | cons item items ih =>
    rw [pushLoop_cons] at ha ⊢
    intro item' ack hmem he ext p hx
    rw [List.zip_cons_cons, List.mem_cons] at hmem
    rcases hmem with h | h
    · obtain ⟨rfl, rfl⟩ := Prod.mk.inj h
      obtain ⟨ext', p', -, -, hx', hp, -⟩ := pushItem_ok he
      rw [hx] at hx'
      cases hx'
      have hg := (pushItem_grows (pushLoop_live ha)).trans (pushLoop_grows ha)
      rwa [parentOk_congr fun k hk => hg.1 k fun hkd => d.extract_parent hx (hkd ▸ hk)]
    · exact ih ha item' ack h he ext p hx

/-- Referential integrity within a batch: a batch that commits leaves every item it
acknowledged with its parent check true of the committed store. Batches run one after the
other (`PushReq.step_step`) keep it; an interleaving can break it. -/
theorem pushHandler_parentOk (d : ItemKind) (f : Faults) (db : Db) (userID : String)
    (items : List Json) (h : (pushHandler d f db userID items).1.1 = 200) :
    ∀ item ack, (item, ack) ∈ items.zip (pushHandler d f db userID items).1.2 → ack.error = "" →
      ∀ ext p, d.extract item = .ok (ext, p) →
        parentOk (pushHandler d f db userID items).2 userID ext p = true := by
  rw [pushHandler_eq] at h ⊢
  rcases hb : batchCommit d f db userID items with _ | db'
  · simp [hb] at h
  obtain ⟨-, ha, -, rfl⟩ := batchCommit_eq_some.mp hb
  exact pushLoop_parentOk ha

/-- A comment pushed on a stored note: the batch commits, and the comment's parent check holds
of the store it commits. -/
theorem pushHandler_parentOk_comment_on_note :
    let db := (pushNotes Faults.none Db.empty "u" [syncItem "00000000-0000-0000-0000-00000000000b" 1 1]).2
    let items := [Json.obj [("uid", .str "00000000-0000-0000-0000-00000000000c"),
      ("parentType", .str "note"), ("parentUid", .str "00000000-0000-0000-0000-00000000000b"),
      ("sync", .obj [("updatedAtMs", .num 10)])]]
    (pushHandler commentItems Faults.none db "u" items).1.1 = 200 ∧
    ∀ item ack, (item, ack) ∈ items.zip (pushHandler commentItems Faults.none db "u" items).1.2 →
      ack.error = "" → ∀ ext p, commentItems.extract item = .ok (ext, p) →
        parentOk (pushHandler commentItems Faults.none db "u" items).2 "u" ext p = true :=
  ⟨by decide, pushHandler_parentOk _ _ _ _ _ (by decide)⟩

end batch

/-! ## Checks across batches -/

/-- The acks a batch has given so far. -/
def PushReq.acks (q : PushReq) : List PushAck :=
  match q.stage with
  | .ready => []
  | .running o => o.acks
  | .finished answer => answer.2

/-- A parent check of the `j`-th batch of `s` ran at a step of the schedule that was the
batch's own, and held of the store committed then. -/
def CheckedAt (s : Pushes) (sched : List Nat) (j : Nat) (userID : String) (ext : Extracted)
    (p : ParentRef) : Prop :=
  ∃ k < sched.length, sched[k]? = some j ∧ parentOk (s.run (sched.take k)).db userID ext p = true

/-- Every item the `j`-th batch `q` acknowledged, and the item it holds for its write, passed its
parent check at one of the batch's steps. -/
def BatchChecked (s : Pushes) (sched : List Nat) (j : Nat) (q : PushReq) : Prop :=
  (∀ item ack, (item, ack) ∈ q.items.zip q.acks → ack.error = "" → ∀ ext p,
    q.d.extract item = .ok (ext, p) → CheckedAt s sched j q.userID ext p) ∧
  ∀ o item ext p, q.stage = .running o → o.checked = some (item, ext, p) →
    CheckedAt s sched j q.userID ext p

/-- After the schedule, every batch is checked so. -/
def ChecksHeld (s : Pushes) (sched : List Nat) : Prop :=
  ∀ j q, (s.run sched).reqs[j]? = some q → BatchChecked s sched j q

section checks

variable {s : Pushes} {sched : List Nat} {j : Nat} {userID : String} {ext : Extracted}
  {p : ParentRef}

/-- A check placed in the schedule stays placed when the schedule goes on. -/
theorem CheckedAt.snoc (h : CheckedAt s sched j userID ext p) (i : Nat) :
    CheckedAt s (sched ++ [i]) j userID ext p := by
  obtain ⟨k, hk, hj, hp⟩ := h
  refine ⟨k, by simp; omega, by rwa [List.getElem?_append_left hk], ?_⟩
  rwa [List.take_append_of_le_length hk.le]

/-- The check the `i`-th batch runs next is placed at the step it runs. -/
theorem checkedAt_last (h : parentOk (s.run sched).db userID ext p = true) (i : Nat) :
    CheckedAt s (sched ++ [i]) i userID ext p :=
  ⟨sched.length, by simp, by simp, by rwa [List.take_left]⟩

/-- The checks of a batch read the committed store: the parent's table is not the batch's. -/
theorem parentOk_tx {d : ItemKind} {item : Json} (hx : d.extract item = .ok (ext, p)) (o : OpenBatch)
    (db : Db) : parentOk (o.tx db d.table).db userID ext p = parentOk db userID ext p :=
  parentOk_congr fun _ hk => Db.overlay_tables_of_ne db o.rows fun h => d.extract_parent hx (h ▸ hk)

/-- A batch's checks stay placed when the schedule goes on. -/
theorem BatchChecked.snoc {q : PushReq} (h : BatchChecked s sched j q) (i : Nat) :
    BatchChecked s (sched ++ [i]) j q :=
  ⟨fun item ack hm he ext p hx => (h.1 item ack hm he ext p hx).snoc i,
    fun o item ext p hs hc => (h.2 o item ext p hs hc).snoc i⟩

theorem PushReq.acks_of_running {q : PushReq} {o : OpenBatch} (h : q.stage = .running o) :
    q.acks = o.acks := by
  simp [PushReq.acks, h]

/-- A batch answered with one batch-level error acknowledged nothing. -/
theorem batchChecked_batchError (q : PushReq) {e : String} (he : e ≠ "") :
    BatchChecked s sched j { q with stage := .finished (500, batchError e) } := by
  refine ⟨fun item ack hm hack => ?_, fun _ _ _ _ h => by cases h⟩
  obtain rfl : ack = ⟨"", 0, none, e⟩ := List.mem_singleton.mp (List.of_mem_zip hm).2
  exact absurd hack he

/-- One step of one batch keeps its checks placed. -/
theorem BatchChecked.step {q : PushReq} (hq : q.Tracks) {i : Nat} (h : BatchChecked s sched i q)
    (busy : Kind → String × Uuid → Bool) :
    BatchChecked s (sched ++ [i]) i (q.step (s.run sched).db busy).1 := by
  have hold₁ := fun item ack hm he ext p hx => (h.1 item ack hm he ext p hx).snoc i
  refine PushReq.step_cases q (s.run sched).db busy
    (motive := fun qd => BatchChecked s (sched ++ [i]) i qd.1)
    (fun _ _ => batchChecked_batchError q (by decide)) ?_ ?_ ?_
    (fun _ _ _ _ _ _ => batchChecked_batchError q (by decide)) ?_ (h.snoc i)
  -- `BEGIN` opens the transaction: nothing answered yet
  · intro _ _
    exact ⟨fun _ _ hm => by simp [PushReq.acks] at hm, fun _ _ _ _ h hc => by cases h; cases hc⟩
  -- the check half: a rejection carries an error, a pass is placed at this step
  · intro o item rest hs hc hr
    have hd := (hq o hs).1
    simp only [hc, hr, Option.map_none', Option.toList_none, List.nil_append] at hd
    unfold PushReq.checkStep
    rcases hci : checkItem q.d q.f (o.tx (s.run sched).db q.d.table) q.userID item with
      ⟨ack | ⟨ext', p'⟩, t⟩
    · refine ⟨fun item' ack' hm he => ?_, fun _ _ _ _ h hc' => by cases h; simp [hc] at hc'⟩
      simp only [PushReq.acks, zip_snoc ack hd, List.mem_append, List.mem_singleton] at hm
      rcases hm with hm | h
      · exact hold₁ item' ack' (PushReq.acks_of_running hs ▸ hm) he
      · cases h; exact absurd he (checkItem_error hci)
    · refine ⟨fun item' ack' hm => hold₁ item' ack' (PushReq.acks_of_running hs ▸ hm),
        fun _ _ _ _ h hc' => ?_⟩
      cases h; cases hc'
      obtain ⟨hx, hv⟩ := checkItem_eq_ok.mp hci
      refine checkedAt_last ?_ i
      rw [← parentOk_tx hx o]
      exact validateParent_ok _ _ _ _ _ (by rw [hv])
  -- the write half: the held item moves to the acks with its check's place
  · intro o item ext p hs hc _
    have hd := (hq o hs).1
    simp only [hc, Option.map_some', Option.toList_some, List.singleton_append] at hd
    refine ⟨fun item' ack' hm he ext' p' hx => ?_, fun _ _ _ _ h hc' => by cases h; cases hc'⟩
    simp only [PushReq.acks, PushReq.writeStep, zip_snoc _ hd, List.mem_append,
      List.mem_singleton] at hm
    rcases hm with hm | hn
    · exact hold₁ item' ack' (PushReq.acks_of_running hs ▸ hm) he ext' p' hx
    · obtain ⟨rfl, -⟩ := Prod.mk.inj hn
      rw [(hq o hs).2 _ ext p hc] at hx
      obtain ⟨rfl, rfl⟩ : ext = ext' ∧ p = p' := by simpa using hx
      exact (h.2 o _ ext p hs hc).snoc i
  -- `COMMIT` publishes: the acks are the open batch's
  · intro o _ hs _ _ _
    exact ⟨fun item ack hm => hold₁ item ack (PushReq.acks_of_running hs ▸ hm),
      fun _ _ _ _ h => by cases h⟩

/-- Before any step, when every batch is ready, nothing is answered or held. -/
theorem checksHeld_nil (h : ∀ q ∈ s.reqs, q.stage = .ready) : ChecksHeld s [] := fun _ q hq => by
  have hr := h q (List.getElem?_mem hq)
  exact ⟨fun _ _ hm => by simp [PushReq.acks, hr] at hm, fun _ _ _ _ hs => by rw [hr] at hs; cases hs⟩

/-- Any batch's step keeps the checks placed. -/
theorem ChecksHeld.step (h : ChecksHeld s sched) (ht : ∀ q ∈ (s.run sched).reqs, q.Tracks)
    (i : Nat) : ChecksHeld s (sched ++ [i]) := by
  intro j q hq
  rw [Pushes.run_snoc] at hq
  by_cases hji : j = i
  · subst hji
    rcases hi : (s.run sched).reqs[j]? with _ | q₀
    · simp [Pushes.step, hi] at hq
    · rw [Pushes.step_getElem?_self hi, Option.some.injEq] at hq
      subst hq
      exact (h j q₀ hi).step (ht q₀ (List.getElem?_mem hi)) _
  · rw [Pushes.step_reqs_ne _ hji] at hq
    exact (h j q hq).snoc i

/-- Every schedule from ready batches keeps the checks placed. -/
theorem checksHeld_run (h : ∀ q ∈ s.reqs, q.stage = .ready) : ∀ sched, ChecksHeld s sched := by
  have ht := Pushes.tracks_run fun q hq o hs => by rw [h q hq] at hs; cases hs
  intro sched
  induction sched using List.reverseRecOn with
  | nil => exact checksHeld_nil h
  | append_singleton sched i ih => exact ih.step (ht sched) i

end checks

/-- Referential integrity at the check (§5): in every interleaving of push batches of any kinds
from ready, every item that a batch answered 200 acknowledged passed its parent check on the
store as committed at one of its own batch's steps. The parent may be deleted by another
batch between that step and the commit. An item whose parent check fails is answered with
the check's error and writes nothing, and a tombstone whose parent reference is valid passes
the checks with no probe, whatever the parent's state. -/
theorem pushes_parentChecked (s : Pushes) (hready : ∀ q ∈ s.reqs, q.stage = .ready)
    (sched : List Nat) :
    (∀ j q acks, (s.run sched).reqs[j]? = some q → q.stage = .finished (200, acks) →
      ∀ item ack, (item, ack) ∈ q.items.zip acks → ack.error = "" → ∀ ext p,
        q.d.extract item = .ok (ext, p) →
        ∃ k < sched.length, sched[k]? = some j ∧ parentOk (s.run (sched.take k)).db q.userID ext p = true) ∧
    (∀ (d : ItemKind) f t userID item ext p e t', d.extract item = .ok (ext, p) →
      validateParent f t userID ext p = (some e, t') →
      pushItem d f t userID item = (ext.ackError e, t') ∧ t'.db = t.db) ∧
    (∀ (d : ItemKind) f t userID item ext p, d.extract item = .ok (ext, p) →
      ext.deletedAtMs.isSome → (∀ ty u, p = .parent ty u → ty = "note" ∨ ty = "task") →
      pushItem d f t userID item = writeItem d.table f t userID item ext p) := by
  refine ⟨fun j q acks hq hfin => ?_, fun d f t userID item ext p e t' hx hv => ?_,
    fun d f t userID item ext p hx hd hty => ?_⟩
  -- the run: the invariant, read off a batch that answered 200
  · have := (checksHeld_run hready sched j q hq).1
    simp only [PushReq.acks, hfin] at this
    exact this
  -- a failed check answers with its error, its transaction's store untouched
  · have hdb := validateParent_db f t userID ext p
    rw [hv] at hdb
    exact ⟨by simp [pushItem, checkItem, hx, hv], hdb⟩
  -- a tombstone passes with no round trip
  · have hv : validateParent f t userID ext p = (none, t) := by
      cases p with
      | none => rfl
      | chat cu => simp [validateParent, hd]
      | parent ty u =>
        have := hty ty u rfl
        simp only [validateParent, hd, if_true]
        rw [if_neg (by tauto)]
    simp [pushItem, checkItem, hx, hv]

/-! ## An orphaned comment -/

/-- What a finished batch answered: its status and the errors of its acks. -/
def PushReq.answer (q : PushReq) : Option (Nat × List String) :=
  match q.stage with
  | .finished (status, acks) => some (status, acks.map (·.error))
  | _ => none

/-- A stored live note `…0b`, and two batches of its owner: a comment on the note, and the
note's tombstone. -/
def orphanRace : Pushes :=
  ⟨[⟨commentItems, Faults.none, "u",
      [.obj [("uid", .str "00000000-0000-0000-0000-00000000000c"), ("parentType", .str "note"),
        ("parentUid", .str "00000000-0000-0000-0000-00000000000b"),
        ("sync", .obj [("updatedAtMs", .num 10)])]], .ready⟩,
    ⟨rootItems .note, Faults.none, "u",
      [.obj [("uid", .str "00000000-0000-0000-0000-00000000000b"),
        ("sync", .obj [("updatedAtMs", .num 20), ("deletedAtMs", .num 20)])]], .ready⟩],
    (pushNotes Faults.none Db.empty "u" [syncItem "00000000-0000-0000-0000-00000000000b" 1 1]).2⟩

/-- Run one batch after the other, tombstone first, the comment is refused: its parent is
gone. Interleaved as the comment's check, the whole tombstone batch, then the comment's write
and commit, both batches are acknowledged and commit, the note is already deleted when the
comment's batch commits, and a live comment names a deleted note. -/
theorem pushes_orphan_comment :
    (orphanRace.run [1, 1, 1, 1, 0, 0, 0, 0]).reqs.map (·.answer) =
        [some (200, ["parent note not found: 00000000-0000-0000-0000-00000000000b"]),
          some (200, [""])] ∧
      (orphanRace.run [0, 0, 1, 1, 1, 1, 0, 0]).reqs.map (·.answer) =
        [some (200, [""]), some (200, [""])] ∧
      ((orphanRace.run [0, 0, 1, 1, 1, 1, 0]).db.tables .note).isLive "u" ⟨11, by decide⟩ = false ∧
      (((orphanRace.run [0, 0, 1, 1, 1, 1, 0, 0]).db.tables .comment).find "u" ⟨12, by decide⟩).map
          (fun r => (r.deletedAtMs, r.parent)) = some (none, .parent "note" ⟨11, by decide⟩) := by
  decide

/-- The comment of the interleaving was checked at the second step, its own, with its note
live. -/
theorem orphanRace_parentChecked :
    (∀ q ∈ orphanRace.reqs, q.stage = .ready) ∧
      ∀ j q acks, (orphanRace.run [0, 0, 1, 1, 1, 1, 0, 0]).reqs[j]? = some q →
        q.stage = .finished (200, acks) → ∀ item ack, (item, ack) ∈ q.items.zip acks →
          ack.error = "" → ∀ ext p, q.d.extract item = .ok (ext, p) →
          ∃ k < 8, [0, 0, 1, 1, 1, 1, 0, 0][k]? = some j ∧
            parentOk (orphanRace.run ([0, 0, 1, 1, 1, 1, 0, 0].take k)).db q.userID ext p = true :=
  have hready : ∀ q ∈ orphanRace.reqs, q.stage = .ready := by simp [orphanRace]
  ⟨hready, (pushes_parentChecked orphanRace hready [0, 0, 1, 1, 1, 1, 0, 0]).1⟩

end Toolbridge
