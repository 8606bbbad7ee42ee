import Toolbridge.Service.Scoped
import Toolbridge.Service.Pull

/-!
# Tenant isolation

Every handler is scoped to the user it runs for (`ServerScoped`): the statements it issues
are (`Toolbridge.Service.Scoped`), and the handler composes them. The push path, the
REST layer, the pulls, the session and wipe handlers each get one lemma here, built from the
lemmas of the functions they call.

The server (`Op.apply`) dispatches a request to its handler, and a run (`Server.run`) logs
each request with its response. Seen by one user, a run is the run of that user's requests
alone (`Server.run_filter_owner`): the other users' requests change nothing the user can
observe. `run_tenant_isolation` states it for two runs from one state.

The session store is shared by all users, but no answer of a handler reads it:
`CreateSession` hands out a session built from its arguments (`createSession_fst`). Over every
run it stays a map from session ids (`Server.run_sessionIds`).
-/

namespace Toolbridge

variable {u : String}

/-! ## The push path -/

/-- The parent probe reads the caller's own rows: its `EXISTS` names `owner_id`. -/
theorem checkParent_scoped (f : Faults) (k : Kind) (pu : Uuid) (failed missing : String) :
    TxScoped u fun t => checkParent f t k u pu failed missing := by
  have hq := TxScoped.exec (f := f) (liveRowStmt_scoped (u := u) k pu)
  refine ⟨fun h => ?_, fun t hv => ?_⟩
  -- from two states that agree on the user's data: one answer, and states that still agree
  · obtain ⟨b, t₁', t₂', e₁, e₂, h'⟩ := hq.outcomes h
    rw [checkParent, checkParent, e₁, e₂]
    cases b <;> exact ⟨rfl, h'⟩
  -- every other owner's data stays as it was
  · obtain ⟨b, t', e, h'⟩ := hq.outcome t hv
    rw [checkParent, e]
    cases b <;> exact h'

theorem validateParent_scoped (f : Faults) (ext : Extracted) (p : ParentRef) :
    TxScoped u fun t => validateParent f t u ext p := by
  cases p <;> simp only [validateParent] <;> (try split_ifs) <;>
    first | exact .pure _ | exact checkParent_scoped _ _ _ _ _

theorem writeItem_scoped (k : Kind) (f : Faults) (item : Json) (ext : Extracted) (p : ParentRef) :
    TxScoped u fun t => writeItem k f t u item ext p := by
  unfold writeItem
  rcases jsonMarshal item with _ | payload
  · exact .pure _
  simp only
  split_ifs
  · exact .pure _
  have hw := TxScoped.exec (f := f) (upsertStmt_scoped k (show (ext.toRow u payload p).ownerId = u from rfl))
  have hr := TxScoped.exec (f := f) (readBackStmt_scoped (u := u) k ext.uid)
  refine ⟨fun h => ?_, fun t hv => ?_⟩
  -- from two states that agree on the user's data: one answer, and states that still agree
  · obtain ⟨b, t₁, t₂, e₁, e₂, h'⟩ := hw.outcomes h
    simp only [e₁, e₂]
    rcases b with _ | ⟨⟩
    · exact ⟨rfl, h'⟩
    obtain ⟨c, t₁', t₂', e₁', e₂', h''⟩ := hr.outcomes h'
    simp only [e₁', e₂']
    rcases c with _ | _ | ⟨v, ms⟩ <;> exact ⟨rfl, h''⟩
  -- every other owner's data stays as it was
  · obtain ⟨b, t₁, e, h'⟩ := hw.outcome t hv
    simp only [e]
    rcases b with _ | ⟨⟩
    · exact h'
    obtain ⟨c, t₁', e', h''⟩ := hr.outcome t₁ hv
    simp only [e']
    rcases c with _ | _ | ⟨v, ms⟩ <;> exact h'.trans h''

/-- One pushed item is a step of the user who pushes it. -/
theorem pushItem_scoped (d : ItemKind) (f : Faults) (item : Json) :
    TxScoped u fun t => pushItem d f t u item := by
  unfold pushItem checkItem
  rcases d.extract item with _ | ⟨ext, p⟩
  · exact .pure _
  have hv := validateParent_scoped (u := u) f ext p
  refine ⟨fun h => ?_, fun t ho => ?_⟩
  · obtain ⟨b, t₁, t₂, e₁, e₂, h'⟩ := hv.outcomes h
    simp only [e₁, e₂]
    rcases b with _ | e
    · exact (writeItem_scoped _ _ _ _ _).congr h'
    · exact ⟨rfl, h'⟩
  · obtain ⟨b, t₁, e, h'⟩ := hv.outcome t ho
    simp only [e]
    rcases b with _ | e
    · exact h'.trans ((writeItem_scoped _ _ _ _ _).frame t₁ ho)
    · exact h'

/-- So is a batch of them, item after item. -/
theorem pushLoop_scoped (d : ItemKind) (f : Faults) :
    ∀ items : List Json, TxScoped u fun t => pushLoop d f u t items
  | [] => .pure _
  | item :: items => (pushItem_scoped d f item).bind fun ack => (pushLoop_scoped d f items).map (ack :: ·)

/-! ## Handlers -/

/-- A push batch, from `BEGIN` to `COMMIT`, is a handler of its user. -/
theorem pushHandler_scoped (d : ItemKind) (f : Faults) (items : List Json) :
    DbScoped u fun db => pushHandler d f db u items := by
  unfold pushHandler
  split_ifs
  · exact .read fun _ => by rfl
  · exact .commit (pushLoop_scoped d f items) f _ (Prod.mk 200)

theorem grpcPush_scoped (d : ItemKind) (f : Faults) (items : List Json) :
    DbScoped u fun db => grpcPush d f db u items := by
  unfold grpcPush
  split_ifs
  · exact .read fun _ => by rfl
  · exact .read fun _ => by rfl
  · exact .commit (pushLoop_scoped d f items) f _ fun acks => Except.ok (acks.map PushAck.toGrpc)

/-! ## The REST layer -/

theorem mutationProbe_scoped (f : Faults) (payload : Json) (opts : MutationOpts) (fresh : Uuid) :
    TxScoped u fun t => mutationProbe f t u payload opts fresh := by
  have hq := TxScoped.exec (f := f) (probeStmt_scoped (u := u) (mutationUid payload fresh).1)
  refine ⟨fun h => ?_, fun t hv => ?_⟩
  -- from two states that agree on the user's data: one answer, and states that still agree
  · obtain ⟨b, t₁, t₂, e₁, e₂, h'⟩ := hq.outcomes h
    simp only [mutationProbe, e₁, e₂]
    rcases b with _ | _ | ⟨ms, v⟩ <;> dsimp only <;> (try split_ifs) <;> exact ⟨rfl, h'⟩
  -- every other owner's data stays as it was
  · obtain ⟨b, t', e, h'⟩ := hq.outcome t hv
    simp only [mutationProbe, e]
    rcases b with _ | _ | ⟨ms, v⟩ <;> dsimp only <;> (try split_ifs) <;> exact h'

theorem mutationWrite_scoped (f : Faults) (uid : Uuid) (payload : Json) (probe : Option (Int × Int))
    (opts : MutationOpts) (now : Int) :
    TxScoped u fun t => mutationWrite f t u uid payload probe opts now := by
  have hp := pushItem_scoped (u := u) (rootItems .taskListCategory) f
    (buildServerMutation payload (mutationTimestamp opts now probe) opts.setDeleted)
  refine ⟨fun h => ?_, fun t hv => ?_⟩
  -- from two states that agree on the user's data: one answer, and states that still agree
  · obtain ⟨ack, t₁, t₂, e₁, e₂, h'⟩ := hp.outcomes h
    simp only [mutationWrite, pushTaskListCategoryItem, e₁, e₂]
    by_cases hack : ack.error ≠ ""
    · simp only [if_pos hack, true_and]; exact h'
    simp only [if_neg hack]
    obtain ⟨c, t₁', t₂', e₁', e₂', h''⟩ := (TxScoped.exec (f := f) (patchVersionStmt_scoped ack.version uid)).outcomes h'
    simp only [e₁', e₂']
    rcases c with _ | ⟨⟩ <;> exact ⟨rfl, h''⟩
  -- every other owner's data stays as it was
  · obtain ⟨ack, t₁, e, h'⟩ := hp.outcome t hv
    simp only [mutationWrite, pushTaskListCategoryItem, e]
    by_cases hack : ack.error ≠ ""
    · simp only [if_pos hack]; exact h'
    simp only [if_neg hack]
    obtain ⟨c, t₁', e', h''⟩ := (TxScoped.exec (f := f) (patchVersionStmt_scoped ack.version uid)).outcome t₁ hv
    simp only [e']
    rcases c with _ | ⟨⟩ <;> exact h'.trans h''

/-- A REST mutation: the probe, the write and the patch, then the commit; each failure rolls
back. -/
theorem applyTaskListCategoryMutation_scoped (f : Faults) (payload : Json) (opts : MutationOpts)
    (fresh : Uuid) (now : Int) :
    DbScoped u fun db => applyTaskListCategoryMutation f db u payload opts fresh now := by
  unfold applyTaskListCategoryMutation
  split_ifs
  · exact .read fun _ => by rfl
  have hp := mutationProbe_scoped (u := u) f payload opts fresh
  refine ⟨fun h => ?_, fun db hv => ?_⟩
  -- from two states that agree on the user's data: one answer, and states that still agree
  · obtain ⟨b, t₁, t₂, e₁, e₂, h'⟩ := hp.outcomes (TxAgree.begin h)
    simp only [e₁, e₂]
    rcases b with e | ⟨uid, payload', probe⟩
    · exact ⟨rfl, h⟩
    obtain ⟨c, t₁', t₂', e₁', e₂', h''⟩ := (mutationWrite_scoped f uid payload' probe opts now).outcomes h'
    simp only [e₁', e₂']
    rcases c with e | item
    · exact ⟨rfl, h⟩
    rcases h''.commit f with ⟨c₁, c₂⟩ | ⟨_, c₁, c₂⟩ <;> simp only [c₁, c₂, true_and]
    · exact h''.db
    · exact h
  -- every other owner's data stays as it was
  · obtain ⟨b, t₁, e, h'⟩ := hp.outcome (Tx.begin db) hv
    simp only [e]
    rcases b with e | ⟨uid, payload', probe⟩
    · exact Agree.refl _ _
    obtain ⟨c, t₁', e', h''⟩ := (mutationWrite_scoped f uid payload' probe opts now).outcome t₁ hv
    simp only [e']
    rcases c with e | item
    · exact Agree.refl _ _
    dsimp only
    rcases hc : t₁'.commit f with _ | db'
    · exact Agree.refl _ _
    · obtain ⟨-, -, rfl⟩ := Tx.commit_eq_ok.mp hc
      exact h'.trans h''

theorem getTaskListCategory_congr (f : Faults) (uid : Uuid) {db₁ db₂ : Db} (h : Agree u db₁ db₂) :
    getTaskListCategory f db₁ u uid = getTaskListCategory f db₂ u uid := by
  simp only [getTaskListCategory, Table.find_congr (h.rows _)]

theorem listTaskListCategories_congr (f : Faults) (cursor : Cursor) (limit : Nat) (includeDeleted : Bool)
    {db₁ db₂ : Db} (h : Agree u db₁ db₂) :
    listTaskListCategories f db₁ u cursor limit includeDeleted =
      listTaskListCategories f db₂ u cursor limit includeDeleted := by
  simp only [listTaskListCategories, Table.above_congr (h.rows _)]

theorem pullHandler_congr (k : Kind) (f : Faults) (cursor limit : String) {db₁ db₂ : Db}
    (h : Agree u db₁ db₂) : pullHandler k f db₁ u cursor limit = pullHandler k f db₂ u cursor limit := by
  simp only [pullHandler, pullItems, Table.scan, Table.above_congr (h.rows k)]

theorem grpcPull_congr (k : Kind) (f : Faults) (cursor : String) (limit : Int) {db₁ db₂ : Db}
    (h : Agree u db₁ db₂) : grpcPull k f db₁ u cursor limit = grpcPull k f db₂ u cursor limit := by
  simp only [grpcPull, pullItems, Table.scan, Table.above_congr (h.rows k)]

theorem getSyncState_congr (f : Faults) {db₁ db₂ : Db} (h : Agree u db₁ db₂) :
    getSyncState f db₁ u = getSyncState f db₂ u := by
  simp only [getSyncState, h.state]

/-! ## Accounts -/

theorem wipeLoop_scoped (f : Faults) :
    ∀ (ks : List Kind) (m : Int32Map), TxScoped u fun t => wipeLoop f u m t ks
  | [], _ => .pure _
  | k :: ks, m => by
    have hd := TxScoped.exec (f := f) (deleteOwnedStmt_scoped (u := u) k)
    refine ⟨fun h => ?_, fun t hv => ?_⟩
    -- from two states that agree on the user's data: one answer, and states that still agree
    · obtain ⟨b, t₁, t₂, e₁, e₂, h'⟩ := hd.outcomes h
      simp only [wipeLoop, e₁, e₂]
      rcases b with _ | n
      · exact ⟨rfl, h'⟩
      exact (wipeLoop_scoped f ks _).congr h'
    -- every other owner's data stays as it was
    · obtain ⟨b, t₁, e, h'⟩ := hd.outcome t hv
      simp only [wipeLoop, e]
      rcases b with _ | n
      · exact h'
      exact h'.trans ((wipeLoop_scoped f ks _).frame t₁ hv)

/-- The wipe transaction deletes the caller's rows only, and bumps the caller's epoch only. -/
theorem wipeTx_scoped (f : Faults) (now : Int) : DbScoped u fun db => wipeTx f db u now := by
  unfold wipeTx
  split_ifs
  · exact .read fun _ => rfl
  have hb := TxScoped.exec (f := f) (bumpEpochStmt_scoped (u := u) now)
  have hl := wipeLoop_scoped (u := u) f wipeTables .empty
  refine ⟨fun h => ?_, fun db hv => ?_⟩
  -- from two states that agree on the user's data: one answer, and states that still agree
  · obtain ⟨b, t₁, t₂, e₁, e₂, h'⟩ := hb.outcomes (TxAgree.begin h)
    simp only [e₁, e₂]
    rcases b with _ | epoch
    · exact ⟨rfl, h⟩
    obtain ⟨c, t₁', t₂', e₁', e₂', h''⟩ := hl.outcomes h'
    simp only [e₁', e₂']
    rcases c with _ | deleted
    · exact ⟨rfl, h⟩
    rcases h''.commit f with ⟨c₁, c₂⟩ | ⟨_, c₁, c₂⟩ <;> simp only [c₁, c₂, true_and]
    · exact h''.db
    · exact h
  -- every other owner's data stays as it was
  · obtain ⟨b, t₁, e, h'⟩ := hb.outcome (Tx.begin db) hv
    simp only [e]
    rcases b with _ | epoch
    · exact Agree.refl _ _
    obtain ⟨c, t₁', e', h''⟩ := hl.outcome t₁ hv
    simp only [e']
    rcases c with _ | deleted
    · exact Agree.refl _ _
    dsimp only
    rcases hc : t₁'.commit f with _ | db'
    · exact Agree.refl _ _
    · obtain ⟨-, -, rfl⟩ := Tx.commit_eq_ok.mp hc
      exact h'.trans h''

theorem autocommit_scoped {α : Type} {q : Stmt α} (hq : Scoped u q) (f : Faults) (n : Nat) :
    DbScoped u fun db => autocommit f n q db := by
  unfold autocommit
  split_ifs
  · exact .read fun _ => rfl
  refine ⟨fun h => ?_, fun db hv => ?_⟩
  -- from two states that agree on the user's data: one answer, and states that still agree
  · rcases hq.outcomes h with ⟨e, e₁, e₂⟩ | ⟨a, d₁, d₂, e₁, e₂, h'⟩ <;> simp only [e₁, e₂, true_and]
    · exact h
    · exact h'
  -- every other owner's data stays as it was
  · rcases e : q db with _ | ⟨a, d⟩
    · exact Agree.refl _ _
    · exact hq.frame hv e

theorem loadEpoch_congr (f : Faults) {db₁ db₂ : Db} (h : Agree u db₁ db₂) :
    loadEpoch f db₁ u = loadEpoch f db₂ u := by
  simp only [loadEpoch, ((autocommit_scoped selectEpochStmt_scoped f 1).congr h).1]

/-- The session `CreateSession` hands out depends on its arguments alone, not on the store. -/
theorem createSession_fst (store : List Session) (userID : String) (epoch : Int) (id : String) (now : Int) :
    (createSession store userID epoch id now).1 = ⟨id, userID, now, now + sessionTtl, epoch⟩ := rfl

/-- `BeginSession`'s store half: the lazy insert and the read of the caller's epoch. -/
theorem openSession_scoped (f : Faults) (id : String) (now : Int) :
    ServerScoped u fun s => openSession f s u id now := by
  have hi := autocommit_scoped (initEpochStmt_scoped (u := u)) f 0
  refine ⟨fun {s₁ s₂} h => ?_, fun s hv => ?_⟩
  · obtain ⟨b, d₁, d₂, e₁, e₂, h'⟩ := hi.outcomes h
    simp only [openSession, initEpoch, e₁, e₂, createSession_fst]
    rcases b with _ | (_ | epoch)
    · exact ⟨rfl, h⟩
    · simp only [loadEpoch_congr f h']
      cases loadEpoch f d₂ u <;> exact ⟨rfl, h'⟩
    · exact ⟨rfl, h'⟩
  · have h' := hi.frame s.db hv
    simp only [openSession, initEpoch]
    rcases e : autocommit f 0 (initEpochStmt u) s.db with ⟨_ | (_ | epoch), d⟩ <;> rewrite [e] at h'
    · exact Agree.refl _ _
    · dsimp only; cases loadEpoch f d u <;> exact h'
    · exact h'

theorem beginSession_scoped (f : Faults) (id : String) (now : Int) :
    ServerScoped u fun s => beginSession f s u id now := by
  have ho := openSession_scoped (u := u) f id now
  unfold beginSession
  split_ifs
  · exact ⟨fun h => ⟨rfl, h⟩, fun _ _ => Agree.refl _ _⟩
  refine ⟨fun h => ?_, fun s hv => ?_⟩
  -- from two states that agree on the user's data: one answer, and states that still agree
  · obtain ⟨e, h'⟩ := ho.congr h
    rcases h₁ : openSession f _ u id now with ⟨_ | _, _⟩ <;> rcases h₂ : openSession f _ u id now with ⟨_ | _, _⟩ <;>
      rw [h₁, h₂] at e h' <;> cases e <;> exact ⟨rfl, h'⟩
  -- every other owner's data stays as it was
  · have := ho.frame s hv
    rcases h₁ : openSession f s u id now with ⟨_ | _, _⟩ <;> rw [h₁] at this <;> exact this

theorem beginSessionHttp_scoped (f : Faults) (id : String) (now : Int) :
    ServerScoped u fun s => beginSessionHttp f s u id now := by
  have ho := openSession_scoped (u := u) f id now
  unfold beginSessionHttp
  split_ifs
  · exact ⟨fun h => ⟨rfl, h⟩, fun _ _ => Agree.refl _ _⟩
  refine ⟨fun h => ?_, fun s hv => ?_⟩
  -- from two states that agree on the user's data: one answer, and states that still agree
  · obtain ⟨e, h'⟩ := ho.congr h
    rcases h₁ : openSession f _ u id now with ⟨_ | _, _⟩ <;> rcases h₂ : openSession f _ u id now with ⟨_ | _, _⟩ <;>
      rw [h₁, h₂] at e h' <;> cases e <;> exact ⟨rfl, h'⟩
  -- every other owner's data stays as it was
  · have := ho.frame s hv
    rcases h₁ : openSession f s u id now with ⟨_ | _, _⟩ <;> rw [h₁] at this <;> exact this

theorem wipeAccount_scoped (f : Faults) (confirm : String) (now : Int) :
    ServerScoped u fun s => wipeAccount f s u confirm now := by
  have hw := wipeTx_scoped (u := u) f now
  unfold wipeAccount
  split_ifs
  · exact ⟨fun h => ⟨rfl, h⟩, fun _ _ => Agree.refl _ _⟩
  · exact ⟨fun h => ⟨rfl, h⟩, fun _ _ => Agree.refl _ _⟩
  refine ⟨fun h => ?_, fun s hv => ?_⟩
  -- from two states that agree on the user's data: one answer, and states that still agree
  · obtain ⟨b, d₁, d₂, e₁, e₂, h'⟩ := hw.outcomes h
    simp only [e₁, e₂]
    rcases b with e | ⟨epoch, deleted⟩
    · exact ⟨rfl, h⟩
    · exact ⟨rfl, h'⟩
  -- every other owner's data stays as it was
  · have h' := hw.frame s.db hv
    rcases e : wipeTx f s.db u now with ⟨_ | ⟨epoch, deleted⟩, d⟩ <;> rewrite [e] at h'
    · exact Agree.refl _ _
    · exact h'

/-! ## The server -/

/-- What the server answers a request with. -/
inductive Response where
  | push (answer : Nat × List PushAck)
  | grpcPush (result : Except (Code × String) (List GrpcAck))
  | pull (answer : Nat × Except String PullResponse)
  | grpcPull (result : Except (Code × String) PullResponse)
  | restGet (result : Except String (Option RestItem))
  | restList (result : Except String RestListResponse)
  | restMutation (result : Except MutationErr RestItem)
  | beginSession (result : Except (Code × String) Session)
  | beginSessionHttp (answer : Nat × Except String Session)
  | wipeAccount (result : Except (Code × String) WipeResult)
  | syncState (result : Except (Code × String) UserSyncState)
  deriving DecidableEq, Repr

/-- A request to the server, with the user it authenticated as, its arguments, and the
faults the environment injects into its round trips. -/
inductive Op where
  | push (k : Kind) (f : Faults) (userID : String) (items : List Json)
  | grpcPush (k : Kind) (f : Faults) (userID : String) (items : List Json)
  | pull (k : Kind) (f : Faults) (userID cursor limit : String)
  | grpcPull (k : Kind) (f : Faults) (userID cursor : String) (limit : Int)
  | restGet (f : Faults) (userID : String) (uid : Uuid)
  | restList (f : Faults) (userID : String) (cursor : Cursor) (limit : Nat) (includeDeleted : Bool)
  | restMutation (f : Faults) (userID : String) (payload : Json) (opts : MutationOpts) (fresh : Uuid)
      (now : Int)
  | beginSession (f : Faults) (userID id : String) (now : Int)
  | beginSessionHttp (f : Faults) (userID id : String) (now : Int)
  | wipeAccount (f : Faults) (userID confirm : String) (now : Int)
  | getSyncState (f : Faults) (userID : String)

/-- The user a request runs for. -/
def Op.owner : Op → String
  | .push _ _ userID _ | .grpcPush _ _ userID _ | .pull _ _ userID _ _ | .grpcPull _ _ userID _ _
  | .restGet _ userID _
  | .restList _ userID _ _ _ | .restMutation _ userID _ _ _ _ | .beginSession _ userID _ _
  | .beginSessionHttp _ userID _ _ | .wipeAccount _ userID _ _ | .getSyncState _ userID => userID

/-- A handler on the database, run on the server's, its answer wrapped as a response. -/
def Server.onDb {β : Type} (F : Db → β × Db) (wrap : β → Response) (s : Server) : Response × Server :=
  (wrap (F s.db).1, { s with db := (F s.db).2 })

/-- A handler on the server, its answer wrapped as a response. -/
def Server.onServer {β : Type} (F : Server → β × Server) (wrap : β → Response) (s : Server) :
    Response × Server :=
  (wrap (F s).1, (F s).2)

/-- The server handling one request. -/
def Op.apply : Op → Server → Response × Server
  | .push k f userID items => Server.onDb (pushHandler k.items f · userID items) .push
  | .grpcPush k f userID items => Server.onDb (Toolbridge.grpcPush k.items f · userID items) .grpcPush
  | .pull k f userID cursor limit => fun s => (.pull (pullHandler k f s.db userID cursor limit), s)
  | .grpcPull k f userID cursor limit => fun s =>
    (.grpcPull (Toolbridge.grpcPull k f s.db userID cursor limit), s)
  | .restGet f userID uid => fun s => (.restGet (getTaskListCategory f s.db userID uid), s)
  | .restList f userID cursor limit includeDeleted => fun s =>
    (.restList (listTaskListCategories f s.db userID cursor limit includeDeleted), s)
  | .restMutation f userID payload opts fresh now =>
    Server.onDb (applyTaskListCategoryMutation f · userID payload opts fresh now) .restMutation
  | .beginSession f userID id now => Server.onServer (Toolbridge.beginSession f · userID id now) .beginSession
  | .beginSessionHttp f userID id now =>
    Server.onServer (Toolbridge.beginSessionHttp f · userID id now) .beginSessionHttp
  | .wipeAccount f userID confirm now => Server.onServer (Toolbridge.wipeAccount f · userID confirm now) .wipeAccount
  | .getSyncState f userID => fun s => (.syncState (Toolbridge.getSyncState f s.db userID), s)

/-- A run of the server: the requests handled one after the other, each logged with its
response. -/
def Server.run : Server → List Op → List (Op × Response) × Server
  | s, [] => ([], s)
  | s, op :: ops =>
    let r := op.apply s
    let rest := Server.run r.2 ops
    ((op, r.1) :: rest.1, rest.2)

namespace ServerScoped

variable {β : Type}

theorem read {R : Db → β} (hR : ∀ {db₁ db₂ : Db}, Agree u db₁ db₂ → R db₁ = R db₂) (wrap : β → Response) :
    ServerScoped u fun s => (wrap (R s.db), s) :=
  ⟨fun h => ⟨by rw [hR h], h⟩, fun _ _ => Agree.refl _ _⟩

theorem onServer {F : Server → β × Server} (hF : ServerScoped u F) (wrap : β → Response) :
    ServerScoped u (Server.onServer F wrap) :=
  ⟨fun h => ⟨by simp only [Server.onServer, (hF.congr h).1], (hF.congr h).2⟩, hF.frame⟩

theorem onDb {F : Db → β × Db} (hF : DbScoped u F) (wrap : β → Response) :
    ServerScoped u (Server.onDb F wrap) :=
  hF.server.onServer wrap

end ServerScoped

/-- Every request is a handler of the user it runs for. -/
theorem Op.apply_scoped : ∀ op : Op, ServerScoped op.owner op.apply
  | .push k f _ items => .onDb (pushHandler_scoped k.items f items) _
  | .grpcPush k f _ items => .onDb (grpcPush_scoped k.items f items) _
  | .pull k f _ cursor limit => .read (pullHandler_congr k f cursor limit) _
  | .grpcPull k f _ cursor limit => .read (grpcPull_congr k f cursor limit) _
  | .restGet f _ uid => .read (getTaskListCategory_congr f uid) _
  | .restList f _ cursor limit includeDeleted => .read (listTaskListCategories_congr f cursor limit includeDeleted) _
  | .restMutation f _ payload opts fresh now => .onDb (applyTaskListCategoryMutation_scoped f payload opts fresh now) _
  | .beginSession f _ id now => .onServer (beginSession_scoped f id now) _
  | .beginSessionHttp f _ id now => .onServer (beginSessionHttp_scoped f id now) _
  | .wipeAccount f _ confirm now => .onServer (wipeAccount_scoped f confirm now) _
  | .getSyncState f _ => .read (getSyncState_congr f) _

/-- No request gives two sessions one id. -/
theorem Op.apply_sessionIds {s : Server} (h : SessionIds s.sessions) :
    ∀ op : Op, SessionIds (op.apply s).2.sessions
  | .push .. | .grpcPush .. | .pull .. | .grpcPull .. | .restGet .. | .restList .. | .restMutation ..
  | .getSyncState .. => h
  | .beginSession f userID id now => beginSession_sessionIds f userID id now h
  | .beginSessionHttp f userID id now => beginSessionHttp_sessionIds f userID id now h
  | .wipeAccount f userID confirm now => wipeAccount_sessionIds f userID confirm now h

/-- The session store stays a map from ids over every run. -/
theorem Server.run_sessionIds : ∀ (ops : List Op) {s : Server}, SessionIds s.sessions →
    SessionIds (s.run ops).2.sessions
  | [], _, h => h
  | op :: ops, _, h => Server.run_sessionIds ops (op.apply_sessionIds h)

/-- A run, seen by one user: what the user's requests were answered, and what the run left
of the user's data, are what the run of the user's requests alone gives, from any state that
holds the same data of the user. -/
theorem Server.run_filter_owner (u : String) :
    ∀ (ops : List Op) {s₁ s₂ : Server}, Agree u s₁.db s₂.db →
      (s₁.run ops).1.filter (fun p => p.1.owner = u) = (s₂.run (ops.filter fun op => op.owner = u)).1 ∧
        Agree u (s₁.run ops).2.db (s₂.run (ops.filter fun op => op.owner = u)).2.db
  | [], _, _, h => ⟨rfl, h⟩
  | op :: ops, s₁, s₂, h => by
    by_cases ho : op.owner = u
    · obtain ⟨e, h'⟩ := (ho ▸ op.apply_scoped).congr h
      obtain ⟨ih₁, ih₂⟩ := Server.run_filter_owner u ops h'
      simp only [Server.run, List.filter_cons, ho, decide_True, if_true, e]
      exact ⟨by rw [ih₁], ih₂⟩
    · have h' := (op.apply_scoped.frame s₁ fun e => ho e.symm).symm.trans h
      obtain ⟨ih₁, ih₂⟩ := Server.run_filter_owner u ops h'
      simp only [Server.run, List.filter_cons, ho, decide_False, if_false]
      exact ⟨ih₁, ih₂⟩

/-- Tenant isolation: two runs from the same state whose requests differ only in requests of
other users leave the same rows of `u` in every table and the same owner state of `u`, and
answer `u`'s requests alike. -/
theorem run_tenant_isolation (u : String) (s : Server) (ops₁ ops₂ : List Op)
    (h : ops₁.filter (fun op => op.owner = u) = ops₂.filter (fun op => op.owner = u)) :
    (∀ k, ((s.run ops₁).2.db.tables k).ownedBy u = ((s.run ops₂).2.db.tables k).ownedBy u) ∧
      (s.run ops₁).2.db.ownerState u = (s.run ops₂).2.db.ownerState u ∧
      (s.run ops₁).1.filter (fun p => p.1.owner = u) = (s.run ops₂).1.filter (fun p => p.1.owner = u) := by
  obtain ⟨e₁, h₁⟩ := Server.run_filter_owner u ops₁ (Agree.refl u s.db)
  obtain ⟨e₂, h₂⟩ := Server.run_filter_owner u ops₂ (Agree.refl u s.db)
  rw [h] at e₁ h₁
  have h₁₂ := h₁.trans h₂.symm
  exact ⟨h₁₂.rows, h₁₂.state, e₁.trans e₂.symm⟩

/-- Another user's push and wipe between two pushes of `u`. -/
theorem run_tenant_isolation_interleaved :
    match [Op.push .taskListCategory Faults.none "u" [syncItem "00000000-0000-0000-0000-00000000000a" 1000 1],
        Op.push .taskListCategory Faults.none "u" [syncItem "00000000-0000-0000-0000-00000000000b" 2000 1]],
      [Op.push .taskListCategory Faults.none "u" [syncItem "00000000-0000-0000-0000-00000000000a" 1000 1],
        Op.push .taskListCategory Faults.none "v" [syncItem "00000000-0000-0000-0000-00000000000a" 1500 1],
        Op.wipeAccount Faults.none "v" "WIPE" 1600,
        Op.push .taskListCategory Faults.none "u" [syncItem "00000000-0000-0000-0000-00000000000b" 2000 1]] with
    | ops₁, ops₂ =>
      ops₁.filter (fun op => op.owner = "u") = ops₂.filter (fun op => op.owner = "u") ∧
        (∀ k, ((Server.run ⟨Db.empty, []⟩ ops₁).2.db.tables k).ownedBy "u" =
          ((Server.run ⟨Db.empty, []⟩ ops₂).2.db.tables k).ownedBy "u") ∧
        (Server.run ⟨Db.empty, []⟩ ops₁).2.db.ownerState "u" = (Server.run ⟨Db.empty, []⟩ ops₂).2.db.ownerState "u" ∧
        (Server.run ⟨Db.empty, []⟩ ops₁).1.filter (fun p => p.1.owner = "u") =
          (Server.run ⟨Db.empty, []⟩ ops₂).1.filter (fun p => p.1.owner = "u") :=
  ⟨rfl, run_tenant_isolation "u" ⟨Db.empty, []⟩ _ _ rfl⟩

end Toolbridge
