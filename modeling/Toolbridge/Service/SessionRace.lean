import Toolbridge.Service.Account

/-!
# `BeginSession` against `WipeAccount`

The session store and the epoch live in two places: the store in the process, the epoch in
`owner_state`. `BeginSession` reads the epoch (the lazy insert, then the select) and only
afterwards stamps a session with it; `WipeAccount` commits the new epoch and only afterwards
drops the owner's sessions. Requests run concurrently, so their steps interleave:

* `BeginSession`: the insert, the select (when the insert found a row), the session;
* `WipeAccount`: the transaction (atomic; `BeginSession`'s statements see it committed or
  not at all), then `DeleteUserSessions`.

`AccountRace.run` runs any interleaving, and a request run alone is its handler
(`AccountRace.run_begin`, `AccountRace.run_wipe`). The store keeps every session of an
owner at the owner's epoch, except while a wipe is between its commit and its
`DeleteUserSessions`, provided no wipe commits while a `BeginSession` holds an epoch it has
read and not used (`accountRace_sessions_current`); without that proviso a session from
before the wipe outlives it (`accountRace_stale_session`).
-/

namespace Toolbridge

/-- Where a `BeginSession` request stands: before the insert, before the select (the insert
found a row), holding the epoch it read, or finished. -/
inductive BeginStage where
  | start
  | select
  | create (epoch : Int)
  | done

/-- Where a `WipeAccount` request stands: before its transaction, committed and about to drop
the owner's sessions, or finished. -/
inductive WipeStage where
  | start
  | invalidate
  | done

/-- A request in flight, with the arguments of its handler. -/
inductive AccountReq where
  | begin (f : Faults) (userID id : String) (now : Int) (stage : BeginStage)
  | wipe (f : Faults) (userID confirm : String) (now : Int) (stage : WipeStage)

namespace AccountReq

/-- One step of a request against the server. -/
def step : AccountReq → Server → AccountReq × Server
  | .begin f userID id now .start, s =>
    if userID = "" then (.begin f userID id now .done, s)
    else match initEpoch f s.db userID with
      | (.error _, _) => (.begin f userID id now .done, s)
      | (.ok (some epoch), db) => (.begin f userID id now (.create epoch), { s with db := db })
      | (.ok none, db) => (.begin f userID id now .select, { s with db := db })
  | .begin f userID id now .select, s =>
    match loadEpoch f s.db userID with
    | .error _ => (.begin f userID id now .done, s)
    | .ok epoch => (.begin f userID id now (.create epoch), s)
  | .begin f userID id now (.create epoch), s =>
    (.begin f userID id now .done, { s with sessions := (createSession s.sessions userID epoch id now).2 })
  | .begin f userID id now .done, s => (.begin f userID id now .done, s)
  | .wipe f userID confirm now .start, s =>
    if userID = "" ∨ confirm ≠ "WIPE" then (.wipe f userID confirm now .done, s)
    else match wipeTx f s.db userID now with
      | (.error _, _) => (.wipe f userID confirm now .done, s)
      | (.ok _, db) => (.wipe f userID confirm now .invalidate, { s with db := db })
  | .wipe f userID confirm now .invalidate, s =>
    (.wipe f userID confirm now .done, { s with sessions := (deleteUserSessions s.sessions userID).1 })
  | .wipe f userID confirm now .done, s => (.wipe f userID confirm now .done, s)

/-- The epoch a `BeginSession` of `u` holds and has not yet stamped a session with. -/
def pendingEpoch : AccountReq → String → Option Int
  | .begin _ userID _ _ (.create e), u => if userID = u then some e else none
  | _, _ => none

/-- Whether this is a `WipeAccount` of `u` that has committed and not yet dropped `u`'s
sessions. -/
def invalidating : AccountReq → String → Bool
  | .wipe _ userID _ _ .invalidate, u => userID = u
  | _, _ => false

/-- Whether this is a `WipeAccount` of `u` whose transaction is next. -/
def startsWipe : AccountReq → String → Bool
  | .wipe _ userID _ _ .start, u => userID = u
  | _, _ => false

/-- Whether the request has finished. -/
def done : AccountReq → Bool
  | .begin _ _ _ _ .done | .wipe _ _ _ _ .done => true
  | _ => false

end AccountReq

/-- The requests in flight and the server. -/
structure AccountRace where
  reqs : List AccountReq
  server : Server

namespace AccountRace

/-- Step the `i`-th request. -/
def step (w : AccountRace) (i : Nat) : AccountRace :=
  match w.reqs[i]? with
  | none => w
  | some r => ⟨w.reqs.set i (r.step w.server).1, (r.step w.server).2⟩

/-- An interleaving: the requests stepped in the order of the schedule. -/
def run (w : AccountRace) (schedule : List Nat) : AccountRace := schedule.foldl step w

end AccountRace

/-! ## Requests run alone -/

/-- A `BeginSession` run alone leaves what the handler leaves. -/
theorem AccountRace.run_begin (f : Faults) (s : Server) (userID id : String) (now : Int) :
    ((AccountRace.mk [.begin f userID id now .start] s).run [0, 0, 0]).server =
      (beginSession f s userID id now).2 := by
  by_cases hu : userID = ""
  · simp [AccountRace.run, AccountRace.step, AccountReq.step, beginSession, hu]
  rcases hi : initEpoch f s.db userID with ⟨_ | _ | e, db⟩
  · simp [AccountRace.run, AccountRace.step, AccountReq.step, beginSession, openSession, hu, hi]
  · rcases hl : loadEpoch f db userID with _ | e <;>
      simp [AccountRace.run, AccountRace.step, AccountReq.step, beginSession, openSession, hu, hi, hl]
  · simp [AccountRace.run, AccountRace.step, AccountReq.step, beginSession, openSession, hu, hi]

/-- A `WipeAccount` run alone leaves what the handler leaves. -/
theorem AccountRace.run_wipe (f : Faults) (s : Server) (userID confirm : String) (now : Int) :
    ((AccountRace.mk [.wipe f userID confirm now .start] s).run [0, 0]).server =
      (wipeAccount f s userID confirm now).2 := by
  by_cases hu : userID = "" ∨ confirm ≠ "WIPE"
  · rcases hu with hu | hu <;> simp [AccountRace.run, AccountRace.step, AccountReq.step, wipeAccount, hu]
    split_ifs <;> rfl
  rw [not_or, not_not] at hu
  rcases hw : wipeTx f s.db userID now with ⟨_ | ⟨e, d⟩, db⟩ <;>
    simp [AccountRace.run, AccountRace.step, AccountReq.step, wipeAccount, hu, hw]

/-! ## One step -/

namespace AccountReq

variable {r : AccountReq} {s : Server} {u : String}

theorem startsWipe_of_pendingEpoch {e : Int} (h : r.pendingEpoch u = some e) : r.startsWipe u = false := by
  rcases r with ⟨_, _, _, _, _ | _ | _ | _⟩ | ⟨_, _, _, _, _ | _ | _⟩ <;> simp_all [pendingEpoch, startsWipe]

theorem invalidating_of_startsWipe (h : r.startsWipe u = true) : r.invalidating u = false := by
  rcases r with ⟨_, _, _, _, _⟩ | ⟨_, _, _, _, _ | _ | _⟩ <;> simp_all [invalidating, startsWipe]

/-- Only a wipe of `u` changes `u`'s epoch. -/
theorem step_epoch (h : r.startsWipe u = false) : currentEpoch (r.step s).2.db u = currentEpoch s.db u := by
  rcases r with ⟨f, v, id, now, _ | _ | e | _⟩ | ⟨f, v, c, now, _ | _ | _⟩ <;> simp only [step]
  · split_ifs
    · rfl
    have he := currentEpoch_initEpoch f s.db v u
    rcases hq : initEpoch f s.db v with ⟨_ | _ | _, db⟩ <;> rw [hq] at he <;> simp only [he]
  · split <;> rfl
  have hv : u ≠ v := fun hv => by simp [startsWipe, hv] at h
  split_ifs
  · rfl
  have he := wipeTx_ownerState_other f s.db (o := u) now hv
  rcases hq : wipeTx f s.db v now with ⟨_ | _, db⟩
  · rfl
  rw [hq] at he
  simp only [currentEpoch] at he ⊢
  rw [he]

/-- A step adds at most the session of the epoch the request held. -/
theorem step_sessions {x : Session} (hx : x ∈ (r.step s).2.sessions) :
    x ∈ s.sessions ∨ r.pendingEpoch x.userId = some x.epoch := by
  rcases r with ⟨f, v, id, now, _ | _ | e | _⟩ | ⟨f, v, c, now, _ | _ | _⟩ <;> simp only [step] at hx
  · split_ifs at hx
    · exact .inl hx
    rcases hq : initEpoch f s.db v with ⟨_ | _ | _, db⟩ <;> simp only [hq] at hx <;> exact .inl hx
  · split at hx <;> exact .inl hx
  · rcases mem_createSession hx with hx | rfl
    · exact .inl hx
    · exact .inr (by simp [pendingEpoch, createSession])
  · exact .inl hx
  · split_ifs at hx
    · exact .inl hx
    rcases hq : wipeTx f s.db v now with ⟨_ | _, db⟩ <;> simp only [hq] at hx <;> exact .inl hx
  · exact .inl (mem_deleteUserSessions.mp hx).1
  · exact .inl hx

/-- The step of a wipe that has committed leaves no session of its owner. -/
theorem step_invalidating (h : r.invalidating u = true) {x : Session} (hx : x ∈ (r.step s).2.sessions) :
    x.userId ≠ u := by
  rcases r with ⟨_, _, _, _, _⟩ | ⟨f, v, c, now, _ | _ | _⟩ <;> simp [invalidating] at h
  subst h
  exact (mem_deleteUserSessions.mp hx).2

/-- An epoch a request holds after its step is its owner's epoch then. -/
theorem step_pendingEpoch {e : Int} (h : (r.step s).1.pendingEpoch u = some e) :
    e = currentEpoch (r.step s).2.db u := by
  rcases r with ⟨f, v, id, now, _ | _ | e | _⟩ | ⟨f, v, c, now, _ | _ | _⟩ <;> simp only [step] at h ⊢
  -- a `BeginSession` reading its epoch with the lazy insert
  · split_ifs at h ⊢
    · simp [pendingEpoch] at h
    have hi := @initEpoch_some f s.db v
    rcases hq : initEpoch f s.db v with ⟨_ | _ | e', db⟩ <;> rw [hq] at hi <;>
      simp only [hq, pendingEpoch, reduceCtorEq] at h ⊢
    split_ifs at h with hvu
    cases h
    subst hvu
    exact hi rfl
  -- or with the `SELECT` after it
  · have hl := @loadEpoch_ok f s.db v
    rcases hq : loadEpoch f s.db v with _ | e' <;> simp only [hq, pendingEpoch, reduceCtorEq] at h ⊢
    split_ifs at h with hvu
    cases h
    subst hvu
    exact hl hq
  -- every other step holds no epoch
  all_goals try simp [pendingEpoch] at h
  split_ifs at h
  rcases hq : wipeTx f s.db v now with ⟨_ | _, db⟩ <;> simp [hq, pendingEpoch] at h

/-- The transaction of a wipe of `u` keeps the sessions, and either changes nothing or
leaves the wipe about to drop `u`'s sessions. -/
theorem step_startsWipe (h : r.startsWipe u = true) :
    (r.step s).2.sessions = s.sessions ∧ ((r.step s).2.db = s.db ∨ (r.step s).1.invalidating u = true) := by
  rcases r with ⟨_, _, _, _, _⟩ | ⟨f, v, c, now, _ | _ | _⟩ <;> simp [startsWipe] at h
  simp only [step]
  split_ifs
  · exact ⟨rfl, .inl rfl⟩
  rcases hq : wipeTx f s.db v now with ⟨_ | _, db⟩ <;> simp [hq, invalidating, h]

end AccountReq

/-! ## Every interleaving -/

/-- What the sessions of `u` satisfy: every epoch a `BeginSession` of `u` holds is `u`'s
epoch, and every session of `u` carries it, unless a wipe of `u` has committed and not yet
dropped `u`'s sessions. -/
structure Coherent (u : String) (w : AccountRace) : Prop where
  pending : ∀ r ∈ w.reqs, ∀ e ∈ r.pendingEpoch u, e = currentEpoch w.server.db u
  sessions : ∀ x ∈ w.server.sessions, x.userId = u →
    x.epoch = currentEpoch w.server.db u ∨ ∃ r ∈ w.reqs, r.invalidating u = true

instance (u : String) (w : AccountRace) : Decidable (Coherent u w) :=
  decidable_of_iff ((∀ r ∈ w.reqs, ∀ e ∈ r.pendingEpoch u, e = currentEpoch w.server.db u) ∧
    ∀ x ∈ w.server.sessions, x.userId = u →
      x.epoch = currentEpoch w.server.db u ∨ ∃ r ∈ w.reqs, r.invalidating u = true)
    ⟨fun ⟨h₁, h₂⟩ => ⟨h₁, h₂⟩, fun ⟨h₁, h₂⟩ => ⟨h₁, h₂⟩⟩

/-- The step of request `i` is not the transaction of a wipe of `u` while a `BeginSession` of
`u` holds an epoch. -/
def Guarded (u : String) (w : AccountRace) (i : Nat) : Prop :=
  w.reqs[i]?.any (·.startsWipe u) = true → ∀ r ∈ w.reqs, r.pendingEpoch u = none

instance (u : String) (w : AccountRace) (i : Nat) : Decidable (Guarded u w i) :=
  inferInstanceAs (Decidable (w.reqs[i]?.any (·.startsWipe u) = true →
    ∀ r ∈ w.reqs, r.pendingEpoch u = none))

/-- Every step of the schedule is guarded. -/
def RunGuarded (u : String) : AccountRace → List Nat → Prop
  | _, [] => True
  | w, i :: is => Guarded u w i ∧ RunGuarded u (w.step i) is

instance RunGuarded.decidable (u : String) : (w : AccountRace) → (is : List Nat) →
    Decidable (RunGuarded u w is)
  | _, [] => isTrue trivial
  | w, i :: is =>
    match RunGuarded.decidable u (w.step i) is with
    | isTrue h => if hg : Guarded u w i then isTrue ⟨hg, h⟩ else isFalse fun h' => hg h'.1
    | isFalse h => isFalse fun h' => h h'.2

/-- A request other than the `i`-th survives the `i`-th one's step. -/
theorem exists_mem_set {l : List AccountReq} {i : Nat} {r y : AccountReq} {p : AccountReq → Bool}
    (hi : l[i]? = some r) (hr : p r = false) (h : ∃ q ∈ l, p q = true) : ∃ q ∈ l.set i y, p q = true := by
  obtain ⟨q, hq, hpq⟩ := h
  obtain ⟨j, hj⟩ := List.getElem?_of_mem hq
  have hji : i ≠ j := by rintro rfl; rw [hi] at hj; cases hj; simp [hr] at hpq
  exact ⟨q, List.getElem?_mem (by rw [List.getElem?_set_ne hji, hj]), hpq⟩

theorem mem_set_of_getElem? {l : List AccountReq} {i : Nat} {r y : AccountReq} (hi : l[i]? = some r) :
    y ∈ l.set i y :=
  List.getElem?_mem (by rw [List.getElem?_set_self', hi]; rfl)

/-- A guarded step keeps the sessions of `u` coherent. -/
theorem Coherent.step {u : String} {w : AccountRace} {i : Nat} (hc : Coherent u w) (hg : Guarded u w i) :
    Coherent u (w.step i) := by
  unfold AccountRace.step
  rcases hi : w.reqs[i]? with _ | r
  · exact hc
  dsimp only
  have hr := List.getElem?_mem hi
  constructor
  -- the epochs held: a step that is no wipe of `u` keeps `u`'s epoch, and the guard keeps a
  -- wipe of `u` away from a held epoch
  · intro q hq e he
    rcases List.mem_or_eq_of_mem_set hq with hq | rfl
    · cases hs : r.startsWipe u
      · rw [AccountReq.step_epoch hs]; exact hc.pending q hq e he
      · simp [hg (by rw [hi]; simpa using hs) q hq] at he
    · exact AccountReq.step_pendingEpoch he
  -- the sessions of `u`: an old one, as before unless a committed wipe now drops it
  · intro x hx hxu
    rcases AccountReq.step_sessions hx with hx' | hp
    · cases hs : r.startsWipe u
      · by_cases hinv : r.invalidating u = true
        · exact absurd hxu (AccountReq.step_invalidating hinv hx)
        · rcases hc.sessions x hx' hxu with h | h
          · exact .inl (by rw [AccountReq.step_epoch hs]; exact h)
          · exact .inr (exists_mem_set hi (by simpa using hinv) h)
      · obtain ⟨-, hdb | hinv⟩ := AccountReq.step_startsWipe (s := w.server) hs
        · rcases hc.sessions x hx' hxu with h | h
          · exact .inl (by rw [hdb]; exact h)
          · exact .inr (exists_mem_set hi (AccountReq.invalidating_of_startsWipe hs) h)
        · exact .inr ⟨_, mem_set_of_getElem? hi, hinv⟩
    -- or one just stamped, with an epoch its request held
    · rw [hxu] at hp
      rw [AccountReq.step_epoch (AccountReq.startsWipe_of_pendingEpoch hp)]
      exact .inl (hc.pending r hr x.epoch hp)

/-- A guarded schedule keeps the sessions of `u` coherent. -/
theorem Coherent.run {u : String} : ∀ {w : AccountRace} {is : List Nat}, Coherent u w →
    RunGuarded u w is → Coherent u (w.run is)
  | _, [], hc, _ => hc
  | w, i :: _, hc, ⟨hg, hrest⟩ => Coherent.run (w := w.step i) (hc.step hg) hrest

/-- Sessions and epochs under any interleaving in which no wipe of `u` commits while a
`BeginSession` of `u` holds an epoch: from a coherent state, in every state the schedule
reaches, every session of `u` carries `u`'s epoch, unless a wipe of `u` has committed and not
yet dropped `u`'s sessions. -/
theorem accountRace_sessions_current (u : String) (w : AccountRace) (schedule : List Nat)
    (h₀ : Coherent u w) (hg : RunGuarded u w schedule) :
    ∀ x ∈ (w.run schedule).server.sessions, x.userId = u →
      x.epoch = currentEpoch (w.run schedule).server.db u ∨
        ∃ r ∈ (w.run schedule).reqs, r.invalidating u = true :=
  (Coherent.run h₀ hg).sessions

/-- The law on a `BeginSession` that finishes before a wipe, stopped when the wipe has committed
and not yet dropped the owner's sessions: the session from before the wipe is still stored, and
the law holds through its exception, the wipe in flight. -/
theorem accountRace_sessions_current_sequential :
    let w : AccountRace :=
      ⟨[.begin Faults.none "u" "s1" 0 .start, .wipe Faults.none "u" "WIPE" 0 .start], ⟨Db.empty, []⟩⟩
    Coherent "u" w ∧ RunGuarded "u" w [0, 0, 1] ∧
      (w.run [0, 0, 1]).server.sessions = [⟨"s1", "u", 0, sessionTtl, 1⟩] ∧
      ∀ x ∈ (w.run [0, 0, 1]).server.sessions, x.userId = "u" →
        x.epoch = currentEpoch (w.run [0, 0, 1]).server.db "u" ∨
          ∃ r ∈ (w.run [0, 0, 1]).reqs, r.invalidating "u" = true :=
  ⟨by decide, by decide, by decide, accountRace_sessions_current "u" _ [0, 0, 1] (by decide) (by decide)⟩

/-- A `BeginSession` that reads epoch 1, then a whole `WipeAccount`, then the session: the
wipe has finished, the epoch is 2, and a live session of the owner carries epoch 1. -/
theorem accountRace_stale_session :
    let w := (AccountRace.mk [.begin Faults.none "u" "s1" 0 .start, .wipe Faults.none "u" "WIPE" 0 .start]
      ⟨Db.empty, []⟩).run [0, 1, 1, 0]
    w.reqs.all (·.done) ∧ currentEpoch w.server.db "u" = 2 ∧
      getSession w.server.sessions "s1" 0 = some ⟨"s1", "u", 0, sessionTtl, 1⟩ := by
  decide

end Toolbridge
