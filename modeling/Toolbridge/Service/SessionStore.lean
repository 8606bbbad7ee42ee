import Toolbridge.Service.Account

/-!
# The session store refines its abstract model

`session.Store` keeps the sync sessions of the process in a map keyed by session id.
`CreateSession` stores a new session and then sweeps the expired ones out
(`cleanupExpiredLocked`); `GetSession` finds a session and hides it once expired;
`DeleteSession` and `DeleteUserSessions` remove sessions.

What the store is for (`Live`): `GetSession(id)` at time `t` answers the session created
under `id`, unless a later `DeleteSession(id)` or `DeleteUserSessions` of its user removed it,
and while `t ≤ expiresAt`. The sweep plays no part in that model. The store refines it
(`sessionStore_refines`) on every sequence of calls whose clock does not go back and whose
ids are fresh, as `uuid.New()` makes them: each call is one snoc step of an invariant that
relates the map to the history of calls (`mem_runStore`).

Revocation is permanent: once `GetSession` has answered "not found" for an id the store
issued, no later call brings the session back (`getSession_none_persists`).
-/

namespace Toolbridge

/-! ## Calls and histories -/

/-- A call on the session store, with the clock where the source reads one. -/
inductive StoreOp where
  | create (userID : String) (epoch : Int) (id : String) (now : Int)
  | get (id : String) (now : Int)
  | delete (id : String)
  | deleteUser (userID : String)
  deriving DecidableEq, Repr

/-- `CreateSession` without its sweep: the map once the new session is stored. -/
def createSessionKeep (store : List Session) (userID : String) (epoch : Int) (id : String)
    (now : Int) : List Session :=
  store.filter (fun s => s.id ≠ id) ++ [⟨id, userID, now, now + sessionTtl, epoch⟩]

namespace StoreOp

/-- The store after the call. -/
def apply (store : List Session) : StoreOp → List Session
  | .create userID epoch id now => (createSession store userID epoch id now).2
  | .get _ _ => store
  | .delete id => (deleteSession store id).1
  | .deleteUser userID => (deleteUserSessions store userID).1

/-- The store after the call, when `CreateSession` does not sweep. -/
def applyKeep (store : List Session) : StoreOp → List Session
  | .create userID epoch id now => createSessionKeep store userID epoch id now
  | op => op.apply store

/-- The session a call creates. -/
def created : StoreOp → Option Session
  | .create userID epoch id now => some ⟨id, userID, now, now + sessionTtl, epoch⟩
  | _ => none

/-- Whether a call removes the session `s`. -/
def removes (s : Session) : StoreOp → Bool
  | .delete id => s.id = id
  | .deleteUser userID => s.userId = userID
  | _ => false

/-- The clock a call reads. -/
def clock : StoreOp → Option Int
  | .create _ _ _ now => some now
  | .get _ now => some now
  | _ => none

/-- The clock of a sweep: `CreateSession` sweeps at its own clock. -/
def sweep : StoreOp → Option Int
  | .create _ _ _ now => some now
  | _ => none

/-- The id a call issues. -/
def issued : StoreOp → Option String
  | .create _ _ id _ => some id
  | _ => none

end StoreOp

/-- The store after a sequence of calls, from the empty store the process starts with. -/
def runStore (ops : List StoreOp) : List Session := ops.foldl StoreOp.apply []

/-- The same without the sweep. -/
def runStoreKeep (ops : List StoreOp) : List Session := ops.foldl StoreOp.applyKeep []

/-- The abstract model: the session `s` was created by a call of the history and removed by
no later one. -/
def Live (s : Session) : List StoreOp → Prop
  | [] => False
  | op :: ops => (op.created = some s ∧ ∀ o ∈ ops, o.removes s = false) ∨ Live s ops

/-- The calls read a clock that does not go back. -/
def Clocked (ops : List StoreOp) : Prop := (ops.filterMap StoreOp.clock).Pairwise (· ≤ ·)

/-- No id is issued twice. -/
def FreshIds (ops : List StoreOp) : Prop := (ops.filterMap StoreOp.issued).Nodup

instance : DecidablePred Clocked := fun ops =>
  inferInstanceAs (Decidable ((ops.filterMap StoreOp.clock).Pairwise (· ≤ ·)))

instance : DecidablePred FreshIds := fun ops =>
  inferInstanceAs (Decidable (ops.filterMap StoreOp.issued).Nodup)

@[simp] theorem runStore_snoc (ops : List StoreOp) (op : StoreOp) :
    runStore (ops ++ [op]) = op.apply (runStore ops) := by
  simp [runStore]

@[simp] theorem runStoreKeep_snoc (ops : List StoreOp) (op : StoreOp) :
    runStoreKeep (ops ++ [op]) = op.applyKeep (runStoreKeep ops) := by
  simp [runStoreKeep]

namespace StoreOp

/-- The calls that sweep are the creates, at their own clock. -/
theorem eq_create_of_sweep {op : StoreOp} {now : Int} (h : op.sweep = some now) :
    ∃ userID epoch id, op = .create userID epoch id now := by
  cases op <;> simp only [sweep, reduceCtorEq, Option.some.injEq] at h
  exact ⟨_, _, _, by rw [h]⟩

variable {op : StoreOp} (h : op.sweep = none)
include h

theorem created_of_sweep : op.created = none := by
  cases op <;> first | rfl | cases h

theorem applyKeep_of_sweep (store : List Session) : op.applyKeep store = op.apply store := by
  cases op <;> first | rfl | cases h

/-- A call that creates nothing removes the sessions it names. -/
theorem mem_apply_of_sweep {store : List Session} {s : Session} :
    s ∈ op.apply store ↔ s ∈ store ∧ op.removes s = false := by
  cases op <;> simp_all [apply, removes, sweep, deleteSession]

end StoreOp

/-- One more call keeps a created session live unless it removes it, and makes live the
session it creates. -/
theorem live_snoc (s : Session) (ops : List StoreOp) (op : StoreOp) :
    Live s (ops ++ [op]) ↔ (Live s ops ∧ op.removes s = false) ∨ op.created = some s := by
  induction ops with
  | nil => simp [Live]
  | cons o ops ih =>
    simp only [List.cons_append, Live, List.append_eq, ih, List.mem_append, List.mem_singleton,
      or_imp, forall_and, forall_eq, or_and_right, or_assoc, and_assoc]

/-- A session live after two stretches of calls was live after the first and removed by no
call of the second, or was created in the second. -/
theorem live_append (s : Session) (ops more : List StoreOp) :
    Live s (ops ++ more) ↔ (Live s ops ∧ ∀ o ∈ more, o.removes s = false) ∨ Live s more := by
  induction ops with
  | nil => simp [Live]
  | cons o ops ih =>
    simp only [List.cons_append, Live, List.append_eq, ih, List.mem_append, or_imp, forall_and,
      or_and_right, and_assoc, or_assoc]

/-- A live session carries an id the history issued. -/
theorem live_issued {s : Session} : ∀ {ops : List StoreOp}, Live s ops →
    s.id ∈ ops.filterMap StoreOp.issued
  | [], h => h.elim
  | op :: ops, .inl ⟨hc, _⟩ => by
    cases op <;> simp only [StoreOp.created, reduceCtorEq, Option.some.injEq] at hc
    subst hc
    simp [StoreOp.issued]
  | op :: ops, .inr h => by
    rw [List.filterMap_cons]
    split
    · exact live_issued h
    · exact List.mem_cons_of_mem _ (live_issued h)

theorem Clocked.init {ops : List StoreOp} {op : StoreOp} (h : Clocked (ops ++ [op])) :
    Clocked ops :=
  h.sublist ((List.sublist_append_left _ _).filterMap _)

theorem FreshIds.init {ops : List StoreOp} {op : StoreOp} (h : FreshIds (ops ++ [op])) :
    FreshIds ops :=
  h.sublist ((List.sublist_append_left _ _).filterMap _)

/-- Every clock the history read is at or before the clock of a later call. -/
theorem Clocked.clock_le {ops : List StoreOp} {op : StoreOp} {now : Int} (h : Clocked (ops ++ [op]))
    (hop : op.clock = some now) : ∀ c ∈ ops.filterMap StoreOp.clock, c ≤ now := by
  unfold Clocked at h
  rw [List.filterMap_append, List.pairwise_append] at h
  exact fun c hc => h.2.2 c hc now (by simp [hop])

/-- Every sweep of the history ran at or before the clock of a later call. -/
theorem Clocked.sweep_le {ops : List StoreOp} {op : StoreOp} {now : Int} (h : Clocked (ops ++ [op]))
    (hop : op.clock = some now) : ∀ c ∈ ops.filterMap StoreOp.sweep, c ≤ now := by
  intro c hc
  obtain ⟨o, ho, hs⟩ := List.mem_filterMap.mp hc
  obtain ⟨userID, epoch, id, rfl⟩ := StoreOp.eq_create_of_sweep hs
  unfold Clocked at h
  rw [List.filterMap_append, List.pairwise_append] at h
  exact h.2.2 c (List.mem_filterMap.mpr ⟨_, ho, rfl⟩) now (by simp [hop])

/-- `CreateSession` is the insert, then the sweep at its clock. -/
theorem createSession_snd (store : List Session) (userID : String) (epoch : Int) (id : String)
    (now : Int) : (createSession store userID epoch id now).2 =
      (createSessionKeep store userID epoch id now).filter fun s => ¬ now > s.expiresAt := rfl

@[simp] theorem mem_createSessionKeep {store : List Session} {userID id : String} {epoch now : Int}
    {x : Session} : x ∈ createSessionKeep store userID epoch id now ↔
      (x ∈ store ∧ x.id ≠ id) ∨ x = ⟨id, userID, now, now + sessionTtl, epoch⟩ := by
  simp [createSessionKeep]

/-- A fresh id belongs to no session live before it was drawn. -/
theorem FreshIds.ne_of_live {ops : List StoreOp} {userID id : String} {epoch now : Int}
    (h : FreshIds (ops ++ [.create userID epoch id now])) {s : Session} (hs : Live s ops) :
    s.id ≠ id := by
  unfold FreshIds at h
  rw [List.filterMap_append, List.nodup_append] at h
  exact fun he => h.2.2 (live_issued hs) (by simp [StoreOp.issued, he])

/-! ## The store and the history -/

theorem sessionIds_apply {store : List Session} (h : SessionIds store) :
    ∀ op : StoreOp, SessionIds (op.apply store)
  | .create userID epoch id now => sessionIds_createSession h userID epoch id now
  | .get _ _ => h
  | .delete _ => h.filter _
  | .deleteUser userID => sessionIds_deleteUserSessions h userID

theorem sessionIds_runStore (ops : List StoreOp) : SessionIds (runStore ops) := by
  induction ops using List.reverseRecOn with
  | nil => exact List.nodup_nil
  | append_singleton ops op ih => rw [runStore_snoc]; exact sessionIds_apply ih op

theorem sessionIds_runStoreKeep (ops : List StoreOp) : SessionIds (runStoreKeep ops) := by
  induction ops using List.reverseRecOn with
  | nil => exact List.nodup_nil
  | append_singleton ops op ih =>
    rw [runStoreKeep_snoc]
    rcases hsw : op.sweep with _ | now
    · rw [StoreOp.applyKeep_of_sweep hsw]
      exact sessionIds_apply ih op
    obtain ⟨userID, epoch, id, rfl⟩ := StoreOp.eq_create_of_sweep hsw
    exact sessionIds_insert ih ⟨id, userID, now, now + sessionTtl, epoch⟩

/-- Without the sweep, the store holds exactly the live sessions of the history. -/
theorem mem_runStoreKeep {ops : List StoreOp} (hfresh : FreshIds ops) (s : Session) :
    s ∈ runStoreKeep ops ↔ Live s ops := by
  induction ops using List.reverseRecOn with
  | nil => simp [runStoreKeep, Live]
  | append_singleton ops op ih =>
    rw [runStoreKeep_snoc, live_snoc, ← ih hfresh.init]
    rcases hsw : op.sweep with _ | now
    · rw [StoreOp.applyKeep_of_sweep hsw, StoreOp.mem_apply_of_sweep hsw,
        StoreOp.created_of_sweep hsw]
      simp
    obtain ⟨userID, epoch, id, rfl⟩ := StoreOp.eq_create_of_sweep hsw
    have hne : s ∈ runStoreKeep ops → s.id ≠ id :=
      fun hs => hfresh.ne_of_live ((ih hfresh.init).mp hs)
    simp only [StoreOp.applyKeep, mem_createSessionKeep, StoreOp.removes, StoreOp.created,
      Option.some.injEq, and_true]
    exact ⟨.imp And.left Eq.symm, .imp (fun hs => ⟨hs, hne hs⟩) Eq.symm⟩

/-- The sweep keeps of the stored sessions those that outlive every sweep so far. -/
theorem mem_runStore {ops : List StoreOp} (hclock : Clocked ops) (s : Session) :
    s ∈ runStore ops ↔
      s ∈ runStoreKeep ops ∧ ∀ c ∈ ops.filterMap StoreOp.sweep, c ≤ s.expiresAt := by
  induction ops using List.reverseRecOn with
  | nil => simp [runStore, runStoreKeep]
  | append_singleton ops op ih =>
    rw [runStore_snoc, runStoreKeep_snoc, List.filterMap_append]
    rcases hsw : op.sweep with _ | now
    -- a call that does not sweep acts alike on both stores
    · rw [StoreOp.applyKeep_of_sweep hsw, StoreOp.mem_apply_of_sweep hsw,
        StoreOp.mem_apply_of_sweep hsw, ih hclock.init]
      simp only [List.filterMap_cons, hsw, List.filterMap_nil, List.append_nil]
      exact and_right_comm
    -- a `CreateSession` at `now`: its sweep drops what expired, and its session outlives `now`
    obtain ⟨userID, epoch, id, rfl⟩ := StoreOp.eq_create_of_sweep hsw
    have hle := hclock.sweep_le
      (show StoreOp.clock (.create userID epoch id now) = some now from rfl)
    simp only [StoreOp.apply, StoreOp.applyKeep, createSession_snd, List.mem_filter,
      mem_createSessionKeep, ih hclock.init, StoreOp.sweep, List.filterMap_cons,
      List.filterMap_nil, List.mem_append, List.mem_singleton, decide_eq_true_eq, not_lt]
    constructor
    · rintro ⟨⟨⟨hs, hsw⟩, hid⟩ | rfl, hn⟩
      · exact ⟨.inl ⟨hs, hid⟩, fun c hc => hc.elim (hsw c) (· ▸ hn)⟩
      · refine ⟨.inr rfl, fun c hc => ?_⟩
        have : 0 < sessionTtl := by decide
        rcases hc with hc | rfl <;> [have := hle c hc; skip] <;> omega
    · rintro ⟨⟨hs, hid⟩ | rfl, hsw⟩
      · exact ⟨.inl ⟨⟨hs, fun c hc => hsw c (.inl hc)⟩, hid⟩, hsw now (.inr rfl)⟩
      · exact ⟨.inr rfl, hsw now (.inr rfl)⟩

/-! ## What `GetSession` answers -/

/-- On a store keyed by id, `GetSession` answers exactly the unexpired session under the id. -/
theorem getSession_eq_some {store : List Session} {id : String} {now : Int} {s : Session}
    (h : SessionIds store) :
    getSession store id now = some s ↔ s ∈ store ∧ s.id = id ∧ now ≤ s.expiresAt := by
  constructor
  · intro hg
    obtain ⟨hf, hn⟩ := Option.filter_eq_some.mp hg
    have hf : store.find? (·.id = id) = some s := hf
    exact ⟨List.mem_of_find?_eq_some hf, by simpa using List.find?_some hf, by simpa using hn⟩
  · rintro ⟨hs, rfl, hn⟩
    cases hf : store.find? (·.id = s.id) with
    | none => exact absurd (List.find?_eq_none.mp hf s hs) (by simp)
    | some x =>
      have hx : x.id = s.id := by simpa using List.find?_some hf
      have : x = s := List.inj_on_of_nodup_map h (List.mem_of_find?_eq_some hf) hs hx
      subst this
      simp [getSession, hf, hn]

/-- Filtering a store filters what `GetSession` answers. -/
theorem getSession_filter {store : List Session} (h : SessionIds store) (p : Session → Bool)
    (id : String) (now : Int) :
    getSession (store.filter p) id now = (getSession store id now).filter p := by
  ext s
  simp only [Option.mem_def, getSession_eq_some (h.filter p), Option.filter_eq_some,
    getSession_eq_some h, List.mem_filter]
  exact and_right_comm

/-- The session store refines the history of its calls: `GetSession(id)` at `t` answers a
session exactly when it was created under `id`, removed by no later call and unexpired at
`t`; the sweep of `CreateSession` changes no answer; and `DeleteUserSessions(u)` hides every
session of `u` and no other. -/
theorem sessionStore_refines (ops : List StoreOp) (id : String) (t : Int)
    (hclock : Clocked (ops ++ [.get id t])) (hfresh : FreshIds ops) :
    (∀ s, getSession (runStore ops) id t = some s ↔ s.id = id ∧ Live s ops ∧ t ≤ s.expiresAt) ∧
    getSession (runStore ops) id t = getSession (runStoreKeep ops) id t ∧
    ∀ u, getSession (runStore (ops ++ [.deleteUser u])) id t =
      (getSession (runStore ops) id t).filter (·.userId ≠ u) := by
  have hswept : ∀ s, getSession (runStore ops) id t = some s ↔
      getSession (runStoreKeep ops) id t = some s := fun s => by
    have hle := hclock.sweep_le (show StoreOp.clock (.get id t) = some t from rfl)
    rw [getSession_eq_some (sessionIds_runStore ops),
      getSession_eq_some (sessionIds_runStoreKeep ops),
      mem_runStore hclock.init]
    exact ⟨fun ⟨⟨hs, _⟩, hid, ht⟩ => ⟨hs, hid, ht⟩,
      fun ⟨hs, hid, ht⟩ => ⟨⟨hs, fun c hc => (hle c hc).trans ht⟩, hid, ht⟩⟩
  refine ⟨fun s => ?_, Option.ext fun s => hswept s, fun u => ?_⟩
  · rw [hswept, getSession_eq_some (sessionIds_runStoreKeep ops), mem_runStoreKeep hfresh]
    exact and_left_comm
  · rw [runStore_snoc]
    exact getSession_filter (sessionIds_runStore ops) _ id t

/-- Two users' sessions, then the second user's are dropped: the first user's session is
still answered, with its own data. -/
theorem sessionStore_refines_two_users :
    Clocked ([.create "u" 1 "s1" 0, .create "v" 1 "s2" 10] ++ [.get "s1" 20]) ∧
    FreshIds [.create "u" 1 "s1" 0, .create "v" 1 "s2" 10] ∧
    getSession (runStore ([.create "u" 1 "s1" 0, .create "v" 1 "s2" 10] ++ [.deleteUser "v"]))
      "s1" 20 =
      some ⟨"s1", "u", 0, sessionTtl, 1⟩ :=
  have h := sessionStore_refines [.create "u" 1 "s1" 0, .create "v" 1 "s2" 10] "s1" 20
    (by decide) (by decide)
  ⟨by decide, by decide, by rw [h.2.2 "v"]; decide⟩

/-! ## Revocation -/

/-- Revocation is permanent: once `GetSession` has answered "not found" for an id the store
issued, it answers "not found" for that id after any later calls, at any later time. Expiry,
`DeleteSession` and `DeleteUserSessions` are never undone, and an issued id is not drawn
again. -/
theorem getSession_none_persists (pre post : List StoreOp) (id : String) (t t' : Int)
    (hissued : id ∈ pre.filterMap StoreOp.issued)
    (hclock : Clocked (pre ++ .get id t :: post ++ [.get id t']))
    (hfresh : FreshIds (pre ++ post))
    (hnone : getSession (runStore pre) id t = none) :
    getSession (runStore (pre ++ .get id t :: post)) id t' = none := by
  have hc : Clocked ((pre ++ .get id t :: post) ++ [.get id t']) := by
    simpa only [List.append_assoc, List.cons_append] using hclock
  have hpre : Clocked (pre ++ [.get id t]) := by
    have h := hc.init
    rw [List.append_cons] at h
    exact h.sublist ((List.sublist_append_left _ _).filterMap _)
  have htt' : t ≤ t' := hc.clock_le rfl t (by simp [StoreOp.clock])
  have hfresh' : FreshIds (pre ++ .get id t :: post) := by
    simpa [FreshIds, StoreOp.issued] using hfresh
  have hfpre : FreshIds pre := hfresh.sublist ((List.sublist_append_left _ _).filterMap _)
  -- a session found at the end is live in the store the sweeps leave
  rw [Option.eq_none_iff_forall_not_mem]
  intro s hs
  rw [Option.mem_def, getSession_eq_some (sessionIds_runStore _), mem_runStore hc.init,
    mem_runStoreKeep hfresh'] at hs
  obtain ⟨⟨hlive, -⟩, rfl, ht'⟩ := hs
  rcases (live_append s _ _).mp hlive with ⟨hlive, -⟩ | hlive
  -- a session live since before the first `GetSession` would have been found by it
  · have hs : s ∈ runStore pre := (mem_runStore hpre.init s).mpr
      ⟨(mem_runStoreKeep hfpre s).mpr hlive, fun c hc' =>
        (hpre.sweep_le rfl c hc').trans (htt'.trans ht')⟩
    have := (getSession_eq_some (sessionIds_runStore pre)).mpr ⟨hs, rfl, htt'.trans ht'⟩
    rw [hnone] at this
    cases this
  -- a session created afterwards would reuse an issued id
  · have hpost := live_issued hlive
    unfold FreshIds at hfresh
    rw [List.filterMap_append, List.nodup_append] at hfresh
    exact hfresh.2.2 hissued (by simpa [StoreOp.issued] using hpost)

/-- A user's sessions are dropped, and a new session of the same user does not bring the
dropped one back. -/
theorem getSession_none_persists_after_delete :
    getSession (runStore ([.create "u" 1 "s1" 0, .deleteUser "u"] ++
      .get "s1" 5 :: [.create "u" 1 "s2" 10])) "s1" 20 = none :=
  getSession_none_persists [.create "u" 1 "s1" 0, .deleteUser "u"] [.create "u" 1 "s2" 10] "s1" 5 20
    (by decide) (by decide) (by decide) (by decide)

end Toolbridge
