import Toolbridge.Service.Rest
import Toolbridge.Service.Batch

/-!
# Concurrent REST mutations

Several `ApplyTaskListCategoryMutation` requests run at once, each in its own
read-committed transaction. A request takes two steps against the committed store:

* its probe, a plain `SELECT` inside the transaction, reads the store as committed when it
  runs and takes no lock;
* its write half, from the upsert to `COMMIT`, holds the row lock the upsert takes, so it
  runs on the store as committed when it gets the lock, and no other write to the row
  comes between its statements; it publishes at the commit.

So an interleaving is a sequence of requests to step (`Mutations.run`). A request stepped
twice in a row is the sequential call (`MutationReq.step_step`).
-/

namespace Toolbridge

/-- Where one request stands: not started, probed (with what the probe left for the write
half: the uid, the payload, what the probe found and the round trips so far), or finished
with its answer. -/
inductive MutationStage where
  | ready
  | probed (uid : Uuid) (payload : Json) (probe : Option (Int × Int)) (stmt : Nat)
  | finished (result : Except MutationErr RestItem)

/-- One request in flight: the arguments of the call, and its stage. -/
structure MutationReq where
  f : Faults
  userID : String
  payload : Json
  opts : MutationOpts
  fresh : Uuid
  now : Int
  stage : MutationStage

namespace MutationReq

/-- One step of a request against the committed store. -/
def step (req : MutationReq) (db : Db) : MutationReq × Db :=
  match req.stage with
  | .ready =>
    if req.f 0 then ({ req with stage := .finished (.error (.database faultError)) }, db)
    else match mutationProbe req.f (Tx.begin db) req.userID req.payload req.opts req.fresh with
      | (.error e, _) => ({ req with stage := .finished (.error e) }, db)
      | (.ok (uid, payload, probe), t) => ({ req with stage := .probed uid payload probe t.stmt }, db)
  | .probed uid payload probe n =>
    match mutationWrite req.f ⟨db, false, n⟩ req.userID uid payload probe req.opts req.now with
    | (.error e, _) => ({ req with stage := .finished (.error e) }, db)
    | (.ok item, t) =>
      match t.commit req.f with
      | .error e => ({ req with stage := .finished (.error (.database e)) }, db)
      | .ok db' => ({ req with stage := .finished (.ok item) }, db')
  | .finished _ => (req, db)

end MutationReq

/-- The requests in flight and the committed store. -/
structure Mutations where
  reqs : List MutationReq
  db : Db

namespace Mutations

/-- Step the `i`-th request. -/
def step (s : Mutations) (i : Nat) : Mutations :=
  match s.reqs[i]? with
  | none => s
  | some req => ⟨s.reqs.set i (req.step s.db).1, (req.step s.db).2⟩

/-- An interleaving: the requests stepped in the order of the schedule. -/
def run (s : Mutations) (schedule : List Nat) : Mutations := schedule.foldl step s

end Mutations

/-! ## Sequential runs -/

/-- A probe that succeeds leaves its transaction live. -/
theorem mutationProbe_live {f : Faults} {t : Tx} {userID : String} {payload : Json}
    {opts : MutationOpts} {fresh : Uuid} {x : Uuid × Json × Option (Int × Int)}
    (h : (mutationProbe f t userID payload opts fresh).1 = .ok x) :
    (mutationProbe f t userID payload opts fresh).2.aborted = false := by
  unfold mutationProbe at h ⊢
  rcases hq : t.exec f (probeStmt userID (mutationUid payload fresh).1) with ⟨_ | p, t'⟩
  · simp only [hq] at h; cases h
  have ht' : t'.aborted = false := by obtain ⟨-, -, db, -, rfl⟩ := Tx.exec_eq_ok.mp hq; rfl
  rcases p with _ | ⟨ms, v⟩ <;> simp only [hq] at h ⊢
  · exact ht'
  · split_ifs at h ⊢
    exact ht'

/-- A request stepped twice from the start is the sequential call. -/
theorem MutationReq.step_step (req : MutationReq) (db : Db) (h : req.stage = .ready) :
    ((req.step db).1.step (req.step db).2).1.stage =
        .finished (applyTaskListCategoryMutation req.f db req.userID req.payload req.opts req.fresh
          req.now).1 ∧
      ((req.step db).1.step (req.step db).2).2 =
        (applyTaskListCategoryMutation req.f db req.userID req.payload req.opts req.fresh req.now).2 := by
  -- `BEGIN` fails: both answer at once
  by_cases hf : req.f 0 = true
  · simp [MutationReq.step, applyTaskListCategoryMutation, h, hf]
  -- the probe: a refusal answers at once; otherwise its transaction is the one the write takes up
  have hdb := mutationProbe_db req.f (Tx.begin db) req.userID req.payload req.opts req.fresh
  have hlive := @mutationProbe_live req.f (Tx.begin db) req.userID req.payload req.opts req.fresh
  rcases hp : mutationProbe req.f (Tx.begin db) req.userID req.payload req.opts req.fresh with
    ⟨e | ⟨uid, payload, probe⟩, t⟩
  · simp [MutationReq.step, applyTaskListCategoryMutation, h, hf, hp]
  rw [hp] at hdb hlive
  have ht : (⟨db, false, t.stmt⟩ : Tx) = t := by
    obtain ⟨tdb, ta, ts⟩ := t
    simp only [Tx.begin] at hdb hlive
    simp [hdb, hlive rfl]
  -- the write half and `COMMIT`, run as the call runs them
  simp only [MutationReq.step, h, hp, ht, applyTaskListCategoryMutation, hf, Bool.false_eq_true,
    if_false]
  rcases mutationWrite req.f t req.userID uid payload probe req.opts req.now with ⟨_ | item, t'⟩
  · simp
  simp only
  rcases t'.commit req.f with _ | db' <;> simp

/-! ## A lost update -/

/-- What a finished request answered: the version it was acknowledged at, or its error. -/
def MutationStage.answer : MutationStage → Option (Except MutationErr Int)
  | .finished (.ok item) => some (.ok item.version)
  | .finished (.error e) => some (.error e)
  | _ => none

/-- Two requests that both expect version 3 of a category stored at version 3. Run one after
the other, the second is refused with `VersionMismatchError{3, 4}`. Interleaved as probe,
probe, write, write, both commit: the first is acknowledged at version 4, and the second,
whose probe never saw it, overwrites it at version 5. -/
theorem mutations_lost_update :
    match Mutations.mk
      [⟨Faults.none, "u", .obj [("uid", .str "00000000-0000-0000-0000-00000000000a"), ("title", .str "a")],
          ⟨true, 3, none, false⟩, Uuid.nil, 2000, .ready⟩,
        ⟨Faults.none, "u", .obj [("uid", .str "00000000-0000-0000-0000-00000000000a"), ("title", .str "b")],
          ⟨true, 3, none, false⟩, Uuid.nil, 3000, .ready⟩]
      (pushTaskListCategories Faults.none Db.empty "u"
        [syncItem "00000000-0000-0000-0000-00000000000a" 1000 3]).2 with
    | s =>
      (s.run [0, 0, 1, 1]).reqs.map (·.stage.answer) = [some (.ok 4), some (.error (.versionMismatch 3 4))] ∧
        (s.run [0, 1, 0, 1]).reqs.map (·.stage.answer) = [some (.ok 4), some (.ok 5)] ∧
        (((s.run [0, 1, 0, 1]).db.tables .taskListCategory).find "u" ⟨10, by decide⟩).map
          (fun r => (r.version, r.payloadJson.get? "title")) = some (5, some (.str "b")) := by
  decide

end Toolbridge
