import Toolbridge.Service.Account

/-!
# The client's session cache

`SessionManager` (package `client` of the MCP server) keeps one sync session for the process
and attaches it to every request to the REST API. `EnsureSession` answers from the cache on a
read-locked fast path while the cached session is valid with a one-minute refresh buffer;
otherwise `createSession` takes the write lock, checks the cache again, and asks the server
for a new session with `POST /v1/sync/sessions`. The cache is kept for `SessionCacheTTL`
(23 hours) from the session's `createdAt`, whatever `expiresAt` the server sent; the server's
store (`Toolbridge.Service.Account`) expires a session after 30 minutes.

Times are milliseconds, as in the server's store. The token and the server's reply to the
creation request are inputs of `createSession`.

Concurrent calls (§2) step through the two critical sections the locks delimit: the
read-locked fast path and the write-locked creation. No other code of the calls touches the
cache, so each section is one atomic step, and an interleaving is a schedule of calls with
the clock each step runs at.
-/

namespace Toolbridge.Client

/-! ## §1 One call -/

/-- `client.Session`. -/
structure Session where
  id : String
  userId : String
  epoch : Int
  createdAt : Int
  expiresAt : Int
  deriving DecidableEq, Repr

/-- `SessionCacheTTL`, 23 hours. -/
def sessionCacheTtl : Int := 23 * 60 * 60 * 1000

/-- `SessionRefreshBuffer`, one minute. -/
def sessionRefreshBuffer : Int := 60 * 1000

/-- Go's zero `time.Time` (January 1 of year 1), in milliseconds since the Unix epoch. -/
def zeroTime : Int := -62135596800000

/-- The value of a non-empty run of decimal digits. -/
def digitsValue (ds : List Char) : Option Int :=
  if ds ≠ [] ∧ ds.all Char.isDigit then
    some (ds.foldl (fun n c => 10 * n + ((c.toNat - 48 : Nat) : Int)) 0)
  else none

/-- A value of Go's 64-bit `int`. -/
def inInt64 (v : Int) : Option Int := if -2 ^ 63 ≤ v ∧ v < 2 ^ 63 then some v else none

/-- `strconv.Atoi` on a 64-bit platform: an optional sign and at least one decimal digit,
in the range of `int`. -/
def atoi (s : String) : Option Int :=
  match s.toList with
  | '-' :: ds => (digitsValue ds).bind fun n => inInt64 (-n)
  | '+' :: ds => (digitsValue ds).bind inInt64
  | ds => (digitsValue ds).bind inInt64

/-- The cache of a `SessionManager`: `cachedSession` and `cacheExpiry`. -/
structure SessionManager where
  cachedSession : Option Session
  cacheExpiry : Int
  deriving DecidableEq, Repr

/-- The JSON body of the creation response, as the decoder fills the handler's struct. -/
structure SessionResponse where
  id : String
  userId : String
  epoch : Int
  createdAt : Int
  expiresAt : Int
  deriving DecidableEq, Repr

/-- What `httpClient.Do` returned for the creation request: the status, the `X-Sync-Epoch`
header (`""` when absent), and the body decoded or the decoder's error. -/
structure CreateReply where
  status : Nat
  epochHeader : String
  body : Except String SessionResponse
  deriving DecidableEq, Repr

/-- The creation request of `createSession` past its double check: the token, the `POST`,
the status check and the decoding. The epoch of the `X-Sync-Epoch` header, when it parses,
wins over the body's. -/
def fetchSession (token : Except String String) (reply : Except String CreateReply) :
    Except String Session :=
  match token, reply with
  | .error e, _ => .error ("failed to get auth token: " ++ e)
  | .ok _, .error e => .error ("failed to create session: " ++ e)
  | .ok _, .ok r =>
    if r.status ≠ 201 ∧ r.status ≠ 200 then
      .error ("session creation failed with status " ++ toString r.status)
    else match r.body with
      | .error e => .error ("failed to parse session response: " ++ e)
      | .ok b =>
        let epoch := if r.epochHeader ≠ "" then (atoi r.epochHeader).getD b.epoch else b.epoch
        .ok ⟨b.id, b.userId, epoch, b.createdAt, b.expiresAt⟩

/-- The number of creation requests a creation sends: one, once it has a token. -/
def postsOf : Except String String → Nat
  | .ok _ => 1
  | .error _ => 0

namespace SessionManager

/-- The check of both paths, `cached != nil && now.Add(SessionRefreshBuffer).Before(expiry)`:
the cached session, if it is still valid at `now`. -/
def cached (sm : SessionManager) (now : Int) : Option Session :=
  if now + sessionRefreshBuffer < sm.cacheExpiry then sm.cachedSession else none

/-- `InvalidateSession`. -/
def invalidateSession (_sm : SessionManager) : SessionManager := ⟨none, zeroTime⟩

/-- The cache after a creation: a new session is kept until `createdAt + SessionCacheTTL`;
a failed creation leaves the cache as it was. -/
def store (sm : SessionManager) : Except String Session → SessionManager
  | .ok s => ⟨some s, s.createdAt + sessionCacheTtl⟩
  | .error _ => sm

/-- `createSession` at `now`, under the write lock: the double check, then the creation. -/
def createSession (sm : SessionManager) (now : Int) (token : Except String String)
    (reply : Except String CreateReply) : Except String Session × SessionManager :=
  match sm.cached now with
  | some s => (.ok s, sm)
  | none => (fetchSession token reply, sm.store (fetchSession token reply))

/-- `EnsureSession`: the fast path at `now₁` and, when it misses, `createSession` at `now₂`. -/
def ensureSession (sm : SessionManager) (now₁ now₂ : Int) (token : Except String String)
    (reply : Except String CreateReply) : Except String Session × SessionManager :=
  match sm.cached now₁ with
  | some s => (.ok s, sm)
  | none => sm.createSession now₂ token reply

theorem cached_eq_some {sm : SessionManager} {now : Int} {s : Session} :
    sm.cached now = some s ↔ sm.cachedSession = some s ∧ now + sessionRefreshBuffer < sm.cacheExpiry := by
  unfold cached
  split_ifs with h <;> simp [h]

@[simp] theorem cached_none_session {e now : Int} : (SessionManager.mk none e).cached now = none := by
  simp [cached]

/-- A created session is served from the cache until one buffer before `createdAt` plus the
cache TTL; its `expiresAt` plays no part. -/
@[simp] theorem cached_store_ok (sm : SessionManager) (s : Session) (now : Int) :
    (sm.store (.ok s)).cached now =
      if now + sessionRefreshBuffer < s.createdAt + sessionCacheTtl then some s else none := rfl

end SessionManager

/-- A session the server's store issues at `now` expires 30 minutes later; the client serves
it from its cache for 23 hours. Created at time 0, the session is still served from the cache
at 31 minutes, without a creation request (the token and reply of that call are errors, so a
creation would fail), while the server's `GetSession` no longer finds it. -/
theorem ensureSession_outlives_server_session :
    match Toolbridge.createSession [] "u" 1 "s1" 0 with
    | (srv, store) =>
      match (SessionManager.mk none zeroTime).ensureSession 0 0 (.ok "token")
          (.ok ⟨201, "1", .ok ⟨srv.id, srv.userId, srv.epoch, srv.createdAt, srv.expiresAt⟩⟩) with
      | (_, sm) =>
        sm.ensureSession (31 * 60 * 1000) (31 * 60 * 1000) (.error "unused") (.error "unused") =
            (.ok ⟨"s1", "u", 1, 0, 30 * 60 * 1000⟩, sm) ∧
          ¬ (31 * 60 * 1000 + sessionRefreshBuffer < srv.expiresAt) ∧
          Toolbridge.getSession store "s1" (31 * 60 * 1000) = none := by
  decide

/-! ## §2 Concurrent calls -/

/-- Where one `EnsureSession` call stands: not started, waiting for the write lock after a
missed fast path, or returned. -/
inductive CallStage where
  | start
  | locking
  | returned (r : Except String Session)
  deriving DecidableEq, Repr

/-- Whether a call has returned. -/
def CallStage.isReturned : CallStage → Bool
  | .returned _ => true
  | _ => false

/-- Concurrent `EnsureSession` calls on one manager. The `k`-th creation that gets past the
double check reads `token k` and `reply k`; `posts` counts the creation requests sent.
`rechecks` records each double check: the expiry of the session it found cached, if any,
and its clock. -/
structure Callers where
  sm : SessionManager
  calls : List CallStage
  token : Nat → Except String String
  reply : Nat → Except String CreateReply
  creations : Nat
  posts : Nat
  rechecks : List (Option Int × Int)

namespace Callers

/-- `n` calls about to start on a cache that holds no session (empty, or invalidated). -/
def init (n : Nat) (expiry : Int) (token : Nat → Except String String)
    (reply : Nat → Except String CreateReply) : Callers :=
  ⟨⟨none, expiry⟩, List.replicate n .start, token, reply, 0, 0, []⟩

/-- What a double check at `now` records: the expiry of the cached session, if there is one,
and the clock. -/
def recheck (w : Callers) (now : Int) : Option Int × Int :=
  (w.sm.cachedSession.map fun _ => w.sm.cacheExpiry, now)

/-- One critical section of call `i` at `now`: the fast path of `EnsureSession` for a call
that has not started, or, for a call whose fast path missed, `createSession` under the write
lock. The counters record whether its double check missed and it created a session. -/
def step (w : Callers) (i : Nat) (now : Int) : Callers :=
  match w.calls[i]? with
  | some .start =>
    match w.sm.cached now with
    | some s => { w with calls := w.calls.set i (.returned (.ok s)) }
    | none => { w with calls := w.calls.set i .locking }
  | some .locking =>
    { w with sm := (w.sm.createSession now (w.token w.creations) (w.reply w.creations)).2,
             calls := w.calls.set i
               (.returned (w.sm.createSession now (w.token w.creations) (w.reply w.creations)).1),
             creations := w.creations + if (w.sm.cached now).isNone then 1 else 0,
             posts := w.posts + if (w.sm.cached now).isNone then postsOf (w.token w.creations) else 0,
             rechecks := w.rechecks ++ [w.recheck now] }
  | _ => w

/-- An interleaving: the steps of the schedule, each a call and the clock it runs at. -/
def run (w : Callers) (sched : List (Nat × Int)) : Callers :=
  sched.foldl (fun w x => w.step x.1 x.2) w

@[simp] theorem run_nil (w : Callers) : w.run [] = w := rfl

@[simp] theorem run_cons (w : Callers) (x : Nat × Int) (sched : List (Nat × Int)) :
    w.run (x :: sched) = (w.step x.1 x.2).run sched := rfl

/-- The locked step is `createSession` with the next creation's token and reply. -/
theorem step_locking {w : Callers} {i : Nat} {now : Int} (h : w.calls[i]? = some .locking) :
    ((w.step i now).calls[i]? = some (.returned
        (w.sm.createSession now (w.token w.creations) (w.reply w.creations)).1)) ∧
      (w.step i now).sm = (w.sm.createSession now (w.token w.creations) (w.reply w.creations)).2 := by
  have hi : i < w.calls.length := (List.getElem?_eq_some_iff.mp h).1
  simp [step, h, List.getElem?_set_self hi]

/-- A call stepped twice from the start is the sequential `EnsureSession`. -/
theorem step_step {w : Callers} {i : Nat} {now₁ now₂ : Int} (h : w.calls[i]? = some .start) :
    ((w.step i now₁).step i now₂).calls[i]? = some (.returned
        (w.sm.ensureSession now₁ now₂ (w.token w.creations) (w.reply w.creations)).1) ∧
      ((w.step i now₁).step i now₂).sm =
        (w.sm.ensureSession now₁ now₂ (w.token w.creations) (w.reply w.creations)).2 := by
  have hi : i < w.calls.length := (List.getElem?_eq_some_iff.mp h).1
  unfold SessionManager.ensureSession
  rcases hc : w.sm.cached now₁ with _ | s
  · have h1 : w.step i now₁ = { w with calls := w.calls.set i .locking } := by simp [step, h, hc]
    rw [h1]
    exact step_locking (by simp [List.getElem?_set_self hi])
  · have h1 : w.step i now₁ = { w with calls := w.calls.set i (.returned (.ok s)) } := by
      simp [step, h, hc]
    rw [h1]
    simp [step, List.getElem?_set_self hi]

theorem step_token (w : Callers) (i : Nat) (now : Int) :
    (w.step i now).token = w.token ∧ (w.step i now).reply = w.reply := by
  unfold step
  split
  · split <;> simp
  · simp
  · simp

theorem length_step (w : Callers) (i : Nat) (now : Int) :
    (w.step i now).calls.length = w.calls.length := by
  unfold step
  split
  · split <;> simp
  · simp
  · rfl

/-- The log of double checks only grows. -/
theorem step_rechecks (w : Callers) (i : Nat) (now : Int) :
    ∃ l, (w.step i now).rechecks = w.rechecks ++ l := by
  unfold step
  split
  · split <;> exact ⟨[], by simp⟩
  · exact ⟨_, rfl⟩
  · exact ⟨[], by simp⟩

theorem run_rechecks (w : Callers) (sched : List (Nat × Int)) :
    ∃ l, (w.run sched).rechecks = w.rechecks ++ l := by
  induction sched generalizing w with
  | nil => exact ⟨[], by simp⟩
  | cons x sched ih =>
    obtain ⟨l₁, h₁⟩ := step_rechecks w x.1 x.2
    obtain ⟨l₂, h₂⟩ := ih (w.step x.1 x.2)
    exact ⟨l₁ ++ l₂, by rw [run_cons, h₂, h₁, List.append_assoc]⟩

theorem run_token (w : Callers) (sched : List (Nat × Int)) :
    (w.run sched).token = w.token ∧ (w.run sched).reply = w.reply := by
  induction sched generalizing w with
  | nil => exact ⟨rfl, rfl⟩
  | cons x sched ih =>
    rw [run_cons, (ih _).1, (ih _).2]
    exact step_token w x.1 x.2

theorem length_run (w : Callers) (sched : List (Nat × Int)) :
    (w.run sched).calls.length = w.calls.length := by
  induction sched generalizing w with
  | nil => rfl
  | cons x sched ih => rw [run_cons, ih, length_step]

/-- Every double check that found a session cached found it still valid. -/
def RechecksValid (w : Callers) : Prop :=
  ∀ x ∈ w.rechecks, ∀ e ∈ x.1, x.2 + sessionRefreshBuffer < e

instance : DecidablePred RechecksValid := fun w =>
  inferInstanceAs (Decidable (∀ x ∈ w.rechecks, ∀ e ∈ x.1, x.2 + sessionRefreshBuffer < e))

/-- The two phases of a run that creates `s` first. Before the creation nothing is cached,
nothing was sent and no call has returned; after it `s` is cached until `createdAt` plus the
cache TTL, one request was sent, and every call that returned returned `s`. -/
def Phase (s : Session) (w : Callers) : Prop :=
  (w.creations = 0 ∧ w.posts = 0 ∧ w.sm.cachedSession = none ∧
      ∀ c ∈ w.calls, c = .start ∨ c = .locking) ∨
    (w.creations = 1 ∧ w.posts = 1 ∧ w.sm = ⟨some s, s.createdAt + sessionCacheTtl⟩ ∧
      ∀ c ∈ w.calls, c = .start ∨ c = .locking ∨ c = .returned (.ok s))

theorem mem_set_of {l : List CallStage} {i : Nat} {x c : CallStage} (P : CallStage → Prop)
    (hl : ∀ c ∈ l, P c) (hx : P x) (hc : c ∈ l.set i x) : P c := by
  rcases List.mem_or_eq_of_mem_set hc with h | rfl
  · exact hl c h
  · exact hx

/-- One step keeps the phases, provided its double check, if it found a session, found it
valid. -/
theorem Phase.step {s : Session} {w : Callers} (i : Nat) (now : Int) (hp : Phase s w)
    (hs : fetchSession (w.token 0) (w.reply 0) = .ok s) (hv : RechecksValid (w.step i now)) :
    Phase s (w.step i now) := by
  unfold Callers.step at hv ⊢
  rcases hp with ⟨hc, hposts, hsm, hcalls⟩ | ⟨hc, hposts, hsm, hcalls⟩
  -- before the creation: nothing is cached, so every check misses
  · have hnone : w.sm.cached now = none := by simp [SessionManager.cached, hsm]
    rcases hi : w.calls[i]? with _ | _ | _ | r
    · exact .inl ⟨hc, hposts, hsm, hcalls⟩
    -- a fast path misses and waits for the lock
    · simp only [hnone]
      exact .inl ⟨hc, hposts, hsm, fun c => mem_set_of _ hcalls (.inr rfl)⟩
    -- the first double check misses and creates `s`
    · have htok : postsOf (w.token 0) = 1 := by
        revert hs; cases w.token 0 <;> simp [fetchSession, postsOf]
      simp only [SessionManager.createSession, hnone, hc, hs, Option.isNone_none, if_true]
      refine .inr ⟨rfl, by simp [hposts, htok], rfl, fun c => mem_set_of
        (fun c => c = .start ∨ c = .locking ∨ c = .returned (.ok s)) ?_ (.inr (.inr rfl))⟩
      exact fun c hc' => (hcalls c hc').elim .inl fun h => .inr (.inl h)
    · have := hcalls _ (List.mem_iff_getElem?.mpr ⟨i, hi⟩)
      simp at this
  -- after the creation: `s` is cached, and every check that finds it valid returns it
  · have hvalid : ∀ now', now' + sessionRefreshBuffer < s.createdAt + sessionCacheTtl →
        w.sm.cached now' = some s := fun now' h => by simp [SessionManager.cached, hsm, h]
    rcases hi : w.calls[i]? with _ | _ | _ | r
    · exact .inr ⟨hc, hposts, hsm, hcalls⟩
    -- a fast path returns `s` or waits for the lock
    · rcases hn : w.sm.cached now with _ | s'
      · exact .inr ⟨hc, hposts, hsm, fun c => mem_set_of _ hcalls (.inr (.inl rfl))⟩
      · obtain rfl : s' = s := by
          rw [SessionManager.cached_eq_some, hsm] at hn; exact (Option.some.inj hn.1).symm
        exact .inr ⟨hc, hposts, hsm, fun c => mem_set_of _ hcalls (.inr (.inr rfl))⟩
    -- a double check finds `s` valid, returns it and creates nothing
    · simp only [hi] at hv
      have hnow : now + sessionRefreshBuffer < s.createdAt + sessionCacheTtl :=
        hv (w.recheck now) (by simp) _ (by simp [recheck, hsm])
      simp only [SessionManager.createSession, hvalid now hnow, Option.isNone_some,
        Bool.false_eq_true, if_false, add_zero]
      exact .inr ⟨hc, hposts, hsm, fun c => mem_set_of _ hcalls (.inr (.inr rfl))⟩
    · exact .inr ⟨hc, hposts, hsm, hcalls⟩

/-- A run keeps the phases when all its double checks that found a session found it valid. -/
theorem Phase.run {s : Session} {w : Callers} (sched : List (Nat × Int)) (hp : Phase s w)
    (hs : fetchSession (w.token 0) (w.reply 0) = .ok s) (hv : RechecksValid (w.run sched)) :
    Phase s (w.run sched) := by
  induction sched generalizing w with
  | nil => exact hp
  | cons x sched ih =>
    rw [run_cons] at hv ⊢
    have hstep : RechecksValid (w.step x.1 x.2) := by
      obtain ⟨l, hl⟩ := run_rechecks (w.step x.1 x.2) sched
      exact fun y hy => hv y (hl ▸ List.mem_append_left _ hy)
    refine ih (hp.step x.1 x.2 hs hstep) ?_ hv
    rw [(step_token w x.1 x.2).1, (step_token w x.1 x.2).2]
    exact hs

end Callers

/-- Concurrent `EnsureSession` calls collapse behind one creation: however `n ≥ 1` calls on
an empty or invalidated cache interleave, if the first creation returns `s` and every double
check that finds a session cached finds it still valid, then once all calls have returned,
exactly one creation request was sent and every call returned `s`. -/
theorem ensureSession_single_creation (n : Nat) (hn : 1 ≤ n) (expiry : Int)
    (token : Nat → Except String String) (reply : Nat → Except String CreateReply)
    (sched : List (Nat × Int)) (s : Session) (hfirst : fetchSession (token 0) (reply 0) = .ok s)
    (hvalid : Callers.RechecksValid ((Callers.init n expiry token reply).run sched))
    (hdone : ∀ c ∈ ((Callers.init n expiry token reply).run sched).calls, c.isReturned) :
    ((Callers.init n expiry token reply).run sched).posts = 1 ∧
      ∀ c ∈ ((Callers.init n expiry token reply).run sched).calls, c = .returned (.ok s) := by
  have h0 : Callers.Phase s (Callers.init n expiry token reply) :=
    .inl ⟨rfl, rfl, rfl, fun c hc => .inl (List.eq_of_mem_replicate hc)⟩
  have hlen : 0 < ((Callers.init n expiry token reply).run sched).calls.length := by
    rw [Callers.length_run]; simpa [Callers.init] using hn
  obtain ⟨c, hc⟩ : ∃ c, c ∈ ((Callers.init n expiry token reply).run sched).calls :=
    ⟨_, List.getElem_mem hlen⟩
  -- the run ends in the phase before the creation, where no call has returned: impossible
  rcases h0.run sched hfirst hvalid with ⟨-, -, -, hcalls⟩ | ⟨-, hposts, -, hcalls⟩
  · have := hdone c hc
    rcases hcalls _ hc with rfl | rfl <;> cases this
  -- or after it: one creation, and every returned call returned `s`
  · refine ⟨hposts, fun c hc => ?_⟩
    have := hdone c hc
    rcases hcalls _ hc with rfl | rfl | h
    · cases this
    · cases this
    · exact h

/-- Two calls that both miss the fast path: the first creates the session, the second finds
it at its double check. -/
theorem ensureSession_single_creation_two_calls :
    1 ≤ 2 ∧ fetchSession (.ok "t") (.ok ⟨201, "", .ok ⟨"s1", "u", 1, 0, 1800000⟩⟩) =
        .ok ⟨"s1", "u", 1, 0, 1800000⟩ ∧
      Callers.RechecksValid ((Callers.init 2 zeroTime (fun _ => .ok "t")
        (fun _ => .ok ⟨201, "", .ok ⟨"s1", "u", 1, 0, 1800000⟩⟩)).run [(0, 0), (1, 0), (0, 1), (1, 2)]) ∧
      (((Callers.init 2 zeroTime (fun _ => .ok "t")
        (fun _ => .ok ⟨201, "", .ok ⟨"s1", "u", 1, 0, 1800000⟩⟩)).run [(0, 0), (1, 0), (0, 1), (1, 2)]).posts = 1 ∧
        ∀ c ∈ ((Callers.init 2 zeroTime (fun _ => .ok "t")
          (fun _ => .ok ⟨201, "", .ok ⟨"s1", "u", 1, 0, 1800000⟩⟩)).run [(0, 0), (1, 0), (0, 1), (1, 2)]).calls,
          c = .returned (.ok ⟨"s1", "u", 1, 0, 1800000⟩)) := by
  have hf : fetchSession (.ok "t") (.ok ⟨201, "", .ok ⟨"s1", "u", 1, 0, 1800000⟩⟩) =
      .ok ⟨"s1", "u", 1, 0, 1800000⟩ := by decide
  have hv : Callers.RechecksValid ((Callers.init 2 zeroTime (fun _ => .ok "t")
      (fun _ => .ok ⟨201, "", .ok ⟨"s1", "u", 1, 0, 1800000⟩⟩)).run [(0, 0), (1, 0), (0, 1), (1, 2)]) := by
    decide
  exact ⟨by decide, hf, hv, ensureSession_single_creation 2 (by decide) zeroTime _ _ _ _ hf hv (by decide)⟩

end Toolbridge.Client
