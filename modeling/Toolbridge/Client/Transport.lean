import Toolbridge.Client.Session
import Mathlib.Data.List.Chain

/-!
# The client's HTTP transport

`HTTPClient.Do` (package `client` of the MCP server) sends one logical request to the sync
API. Each attempt (`doWithRetry`) clones the caller's request (`cloneRequest` buffers the body
and puts it back for the next attempt), sets the correlation ID drawn once for the call,
injects the authentication header and the session headers of that attempt, and sends the
clone. A 401, an epoch-mismatch 409 and a 429 go to their handlers, which share one
`retryCount` and call `doWithRetry` again while it is below `MaxRetries`.

The outside world is an input (`Env`): what the token provider, the session manager and the
server answer at each attempt, the clock, whether the context is cancelled during a backoff,
and Go's `http.ParseTime`. The calls `Do` makes on that world are its trace (`Effect`).
Durations and times are nanoseconds, as in `time.Duration`.

What `Do` hands its caller is the server's answer to the last request the call sent, and
never a status the handlers retry on (`doRequest_answer`). Its trace alternates between
requests sent and the one reaction each answer calls for: the client drops its token or its
session, or backs off, only after the server refused the request just sent
(`doRequest_trace_alternates`).
-/

namespace Toolbridge.Client

/-! ## §1 Requests and responses -/

/-- `http.Header`: the values under each key, as the map stores them. The keys the code sets
are written in the canonical form `Header.Set` stores them under. -/
abbrev Header := String → Option (List String)

/-- `Header.Set(k, v)`: `k` now holds `v` alone. -/
def Header.set (h : Header) (k v : String) : Header := Function.update h k (some [v])

/-- `Header.Get(k)`: the first value under `k`, or `""`. -/
def Header.get (h : Header) (k : String) : String :=
  match h k with
  | some (v :: _) => v
  | _ => ""

/-- The headers of a list set one after the other. -/
def Header.setAll (h : Header) (kvs : List (String × String)) : Header :=
  kvs.foldl (fun h kv => h.set kv.1 kv.2) h

@[simp] theorem Header.set_self (h : Header) (k v : String) : h.set k v k = some [v] := by
  simp [Header.set]

@[simp] theorem Header.set_of_ne (h : Header) {k k' : String} (v : String) (hk : k' ≠ k) :
    h.set k v k' = h k' := by
  simp [Header.set, hk]

/-- A request body: the bytes a read yields, and the error the read then fails with, if any. -/
structure Body where
  bytes : List UInt8
  err : Option String
  deriving DecidableEq, Repr

/-- `*http.Request`, as `Do` reads it: the method, the URL, the headers, and the body (`nil` is
`none`). -/
structure Request where
  method : String
  url : String
  header : Header
  body : Option Body

/-- The fields of a 409 body the conflict handler decodes. -/
structure ConflictBody where
  error : String
  epoch : Int
  deriving DecidableEq, Repr

/-- `*http.Response`, as the retry logic reads it: the status, the headers, and for a 409 the
body as `json.Unmarshal` decodes it into the handler's struct (`none` when the body cannot be
read or does not decode). -/
structure Response where
  status : Nat
  header : Header
  conflict : Option ConflictBody

/-- `X-Correlation-ID`, which `Header.Set` stores as `X-Correlation-Id`. -/
def correlationIdHeader : String := "X-Correlation-Id"

/-- The headers `cloneRequest` leaves out of the copy, to be injected again. -/
def reinjected (k : String) : Bool :=
  k == "Authorization" || k == "X-Sync-Session" || k == "X-Sync-Epoch" || k == "X-Debug-Sub"

/-- A character of an HTTP token (`httpguts.IsTokenRune`): a visible ASCII character other
than the separators. -/
def isTokenChar (c : Char) : Bool :=
  33 ≤ c.toNat && c.toNat ≤ 126 &&
    !([34, 40, 41, 44, 47, 58, 59, 60, 61, 62, 63, 64, 91, 92, 93, 123, 125].contains c.toNat)

/-- `net/http`'s `validMethod`: a non-empty token. -/
def validMethod (m : String) : Bool := m ≠ "" && m.toList.all isTokenChar

/-- `http.NewRequestWithContext(ctx, method, url, bytes.NewReader(body))`: an empty method is
`GET`, an invalid one is refused; the new request has no header. The URL is the caller's, and
its parse is not modelled. -/
def newRequest (method url : String) (body : List UInt8) : Except String Request :=
  let m := if method = "" then "GET" else method
  if validMethod m then .ok ⟨m, url, fun _ => none, some ⟨body, none⟩⟩
  else .error ("net/http: invalid method \"" ++ m ++ "\"")

/-- `io.ReadAll(req.Body)` and the body put back: the bytes and the request as the read
leaves it. A failed read leaves the body drained. -/
def readBody (req : Request) : Except String (List UInt8) × Request :=
  match req.body with
  | none => (.ok [], req)
  | some ⟨bytes, none⟩ => (.ok bytes, { req with body := some ⟨bytes, none⟩ })
  | some ⟨_, some e⟩ => (.error e, { req with body := some ⟨[], some e⟩ })

/-- `cloneRequest`: a new request with the caller's method, URL and body bytes, and every
header but the re-injected ones; and the caller's request as the clone leaves it. -/
def cloneRequest (req : Request) : Except String Request × Request :=
  match readBody req with
  | (.error e, req) => (.error e, req)
  | (.ok bytes, req) =>
    match newRequest req.method req.url bytes with
    | .error e => (.error e, req)
    | .ok clone =>
      (.ok { clone with header := fun k => if reinjected k then none else req.header k }, req)

/-! ## §2 The retry loop -/

/-- The client's configuration: dev mode with its debug subject, and whether a session
manager is configured (`sessionMgr != nil`). -/
structure HTTPClient where
  devMode : Bool
  debugSub : String
  hasSessionMgr : Bool
  deriving DecidableEq, Repr

/-- What the outside world answers at attempt `n` of one logical call (the attempt with
`retryCount = n`). -/
structure Env where
  correlationId : String
  getToken : Nat → Except String String
  ensureSession : Nat → Except String Session
  send : Nat → Request → Except String Response
  now : Nat → Int
  cancelled : Nat → Option String
  parseTime : String → Option Int

/-- The calls `Do` makes: requests sent (with their attempt), cache invalidations, and waits. -/
inductive Effect where
  | send (attempt : Nat) (req : Request)
  | invalidateToken
  | invalidateSession
  | wait (d : Int)

/-- Whether an effect is a request sent. -/
def Effect.isSend : Effect → Bool
  | .send _ _ => true
  | _ => false

/-- Whether an effect is a token invalidation. -/
def Effect.isInvalidateToken : Effect → Bool
  | .invalidateToken => true
  | _ => false

/-- Whether an effect is a session invalidation. -/
def Effect.isInvalidateSession : Effect → Bool
  | .invalidateSession => true
  | _ => false

/-- The errors of `Do`: a message (the wrapped errors and the transport's), `ErrEpochMismatch`
with the server's epoch, and `ErrRateLimited` with its `RetryAfter` seconds. -/
inductive ClientErr where
  | msg (text : String)
  | epochMismatch (serverEpoch : Int)
  | rateLimited (retryAfter : Int)
  deriving DecidableEq, Repr

/-- `MaxRetries`. -/
def maxRetries : Nat := 3

/-- `time.Second`. -/
def second : Int := 1000000000

/-- `DefaultBackoff`, one second. -/
def defaultBackoff : Int := second

/-- Go's `int64` arithmetic: two's-complement wrap-around. -/
def toInt64 (v : Int) : Int := (v + 2 ^ 63) % 2 ^ 64 - 2 ^ 63

/-- `t.Sub(u)`: the difference, saturated at the ends of the `time.Duration` range. -/
def timeSub (t u : Int) : Int :=
  if t - u < -2 ^ 63 then -2 ^ 63 else if 2 ^ 63 - 1 < t - u then 2 ^ 63 - 1 else t - u

/-- `int(d.Seconds())`: the seconds of a duration, truncated toward zero. -/
def durationSeconds (d : Int) : Int := d.tdiv second

/-- `parseRetryAfter(value)` at `now`: a positive integer of seconds, else the time until a
future HTTP date, else zero. -/
def parseRetryAfter (parseTime : String → Option Int) (now : Int) (value : String) : Int :=
  if value = "" then 0
  else match (atoi value).filter (fun s => 0 < s) with
    | some seconds => toInt64 (seconds * second)
    | none => match parseTime value with
      | some t => if 0 < timeSub t now then timeSub t now else 0
      | none => 0

/-- What a handler decides: the call's answer, or another attempt after these calls. -/
inductive Next where
  | done (r : Except ClientErr Response)
  | retry (effects : List Effect)

/-- `handleUnauthorized`. -/
def handleUnauthorized (c : HTTPClient) (retryCount : Nat) : Next :=
  if retryCount ≥ maxRetries then
    .done (.error (.msg ("authentication failed after " ++ toString retryCount ++ " retries")))
  else if c.devMode then .done (.error (.msg "authentication failed in dev mode"))
  else .retry [.invalidateToken]

/-- `handleEpochMismatch`. -/
def handleEpochMismatch (c : HTTPClient) (serverEpoch : Int) (retryCount : Nat) : Next :=
  if retryCount ≥ maxRetries then .done (.error (.epochMismatch serverEpoch))
  else if !c.hasSessionMgr then .done (.error (.epochMismatch serverEpoch))
  else .retry [.invalidateSession]

/-- `handleConflict`: an `epoch_mismatch` body goes to `handleEpochMismatch`, with the epoch of
the `X-Sync-Epoch` header when it parses; any other 409 is the answer. -/
def handleConflict (c : HTTPClient) (resp : Response) (retryCount : Nat) : Next :=
  match resp.conflict with
  | some b =>
    if b.error = "epoch_mismatch" then
      let h := resp.header.get "X-Sync-Epoch"
      handleEpochMismatch c (if h ≠ "" then (atoi h).getD b.epoch else b.epoch) retryCount
    else .done (.ok resp)
  | none => .done (.ok resp)

/-- `handleRateLimit`: past the last attempt, `ErrRateLimited` with the header's seconds;
otherwise a wait of `Retry-After`, or of `DefaultBackoff * (1 << retryCount)` when that is zero,
unless the context is cancelled first. -/
def handleRateLimit (env : Env) (resp : Response) (retryCount : Nat) : Next :=
  if retryCount ≥ maxRetries then
    .done (.error (.rateLimited (durationSeconds
      (parseRetryAfter env.parseTime (env.now retryCount) (resp.header.get "Retry-After")))))
  else
    let retryAfter :=
      parseRetryAfter env.parseTime (env.now retryCount) (resp.header.get "Retry-After")
    let retryAfter :=
      if retryAfter = 0 then defaultBackoff * ((1 <<< retryCount : Nat) : Int) else retryAfter
    match env.cancelled retryCount with
    | some e => .done (.error (.msg e))
    | none => .retry [.wait retryAfter]

/-- The `switch` on the status of an answered attempt. -/
def handle (c : HTTPClient) (env : Env) (resp : Response) (retryCount : Nat) : Next :=
  if resp.status = 401 then handleUnauthorized c retryCount
  else if resp.status = 409 then handleConflict c resp retryCount
  else if resp.status = 429 then handleRateLimit env resp retryCount
  else .done (.ok resp)

/-- What a retry can be: below `MaxRetries`, a 401 after a token invalidation, an
epoch-mismatch 409 after a session invalidation, or a 429 after a wait. -/
theorem handle_eq_retry {c : HTTPClient} {env : Env} {resp : Response} {n : Nat}
    {effs : List Effect} (h : handle c env resp n = .retry effs) :
    n < maxRetries ∧ ((resp.status = 401 ∧ effs = [.invalidateToken]) ∨
      (resp.status = 409 ∧ effs = [.invalidateSession]) ∨
        (resp.status = 429 ∧ ∃ d, effs = [.wait d])) := by
  unfold handle at h
  split_ifs at h with h401 h409 h429
  -- a 401: the token is dropped
  · unfold handleUnauthorized at h
    split_ifs at h with hn
    cases h
    exact ⟨Nat.lt_of_not_le hn, .inl ⟨h401, rfl⟩⟩
  -- a 409: only an epoch mismatch is retried, after the session is dropped
  · unfold handleConflict handleEpochMismatch at h
    split at h
    · split_ifs at h with _ hn
      cases h
      exact ⟨Nat.lt_of_not_le hn, .inr (.inl ⟨h409, rfl⟩)⟩
    · cases h
  -- a 429: a wait, unless the context is cancelled
  · unfold handleRateLimit at h
    split_ifs at h with hn
    split at h
    · cases h
    · cases h
      exact ⟨Nat.lt_of_not_le hn, .inr (.inr ⟨h429, _, rfl⟩)⟩

/-- The authentication header of attempt `n`: `X-Debug-Sub` in dev mode, the bearer token
otherwise. -/
def authHeader (c : HTTPClient) (env : Env) (n : Nat) : Except ClientErr (String × String) :=
  if c.devMode then .ok ("X-Debug-Sub", c.debugSub)
  else match env.getToken n with
    | .error e => .error (.msg ("failed to get auth token: " ++ e))
    | .ok token => .ok ("Authorization", "Bearer " ++ token)

/-- The session headers of attempt `n`, when a session manager is configured. -/
def sessionHeaders (c : HTTPClient) (env : Env) (n : Nat) :
    Except ClientErr (List (String × String)) :=
  if c.hasSessionMgr then
    match env.ensureSession n with
    | .error e => .error (.msg ("failed to ensure session: " ++ e))
    | .ok s => .ok [("X-Sync-Session", s.id), ("X-Sync-Epoch", toString s.epoch)]
  else .ok []

theorem authHeader_eq_ok {c : HTTPClient} {env : Env} {n : Nat} {a : String × String}
    (h : authHeader c env n = .ok a) :
    (c.devMode = true ∧ a = ("X-Debug-Sub", c.debugSub)) ∨
      (c.devMode = false ∧ ∃ t, env.getToken n = .ok t ∧ a = ("Authorization", "Bearer " ++ t)) := by
  unfold authHeader at h
  split at h
  · cases h; exact .inl ⟨‹_›, rfl⟩
  · split at h
    · cases h
    · cases h; exact .inr ⟨Bool.eq_false_iff.mpr ‹_›, _, ‹_›, rfl⟩

theorem sessionHeaders_eq_ok {c : HTTPClient} {env : Env} {n : Nat} {ss : List (String × String)}
    (h : sessionHeaders c env n = .ok ss) :
    (c.hasSessionMgr = true ∧ ∃ s, env.ensureSession n = .ok s ∧
        ss = [("X-Sync-Session", s.id), ("X-Sync-Epoch", toString s.epoch)]) ∨
      (c.hasSessionMgr = false ∧ ss = []) := by
  unfold sessionHeaders at h
  split at h
  · split at h
    · cases h
    · cases h; exact .inl ⟨‹_›, _, ‹_›, rfl⟩
  · cases h; exact .inr ⟨Bool.eq_false_iff.mpr ‹_›, rfl⟩

/-- One attempt of `doWithRetry`, up to the `switch`: clone, inject, send. It returns the
server's answer, the caller's request as the clone leaves it, and the request sent. -/
def attempt (c : HTTPClient) (env : Env) (req : Request) (n : Nat) :
    Except ClientErr Response × Request × List Effect :=
  match cloneRequest req with
  | (.error e, req) => (.error (.msg ("failed to clone request: " ++ e)), req, [])
  | (.ok clone, req) =>
    match authHeader c env n, sessionHeaders c env n with
    | .error e, _ => (.error e, req, [])
    | .ok _, .error e => (.error e, req, [])
    | .ok a, .ok ss =>
      let sent := { clone with
        header := (clone.header.set correlationIdHeader env.correlationId).setAll (a :: ss) }
      match env.send n sent with
      | .error e => (.error (.msg e), req, [.send n sent])
      | .ok resp => (.ok resp, req, [.send n sent])

/-- `doWithRetry` at `retryCount`: the answer, the caller's request as the call leaves it, and
the calls made. -/
def doWithRetry (c : HTTPClient) (env : Env) (req : Request) (retryCount : Nat) :
    Except ClientErr Response × Request × List Effect :=
  match attempt c env req retryCount with
  | (.error e, req, effs) => (.error e, req, effs)
  | (.ok resp, req, effs) =>
    match _hr : handle c env resp retryCount with
    | .done r => (r, req, effs)
    | .retry more =>
      let rest := doWithRetry c env req (retryCount + 1)
      (rest.1, rest.2.1, effs ++ more ++ rest.2.2)
termination_by maxRetries - retryCount
decreasing_by have := (handle_eq_retry _hr).1; omega

section doWithRetry

variable {c : HTTPClient} {env : Env} {req req' : Request} {n : Nat} {effs : List Effect}

theorem doWithRetry_of_error {e : ClientErr} (ha : attempt c env req n = (.error e, req', effs)) :
    doWithRetry c env req n = (.error e, req', effs) := by
  rw [doWithRetry, ha]

theorem doWithRetry_of_done {resp : Response} {r : Except ClientErr Response}
    (ha : attempt c env req n = (.ok resp, req', effs)) (hh : handle c env resp n = .done r) :
    doWithRetry c env req n = (r, req', effs) := by
  rw [doWithRetry, ha]
  dsimp only
  split <;> rename_i h <;> rw [hh] at h <;> cases h
  rfl

theorem doWithRetry_of_retry {resp : Response} {more : List Effect}
    (ha : attempt c env req n = (.ok resp, req', effs)) (hh : handle c env resp n = .retry more) :
    doWithRetry c env req n =
      ((doWithRetry c env req' (n + 1)).1, (doWithRetry c env req' (n + 1)).2.1,
        effs ++ more ++ (doWithRetry c env req' (n + 1)).2.2) := by
  rw [doWithRetry, ha]
  dsimp only
  split <;> rename_i h <;> rw [hh] at h <;> cases h
  rfl

end doWithRetry

/-- `HTTPClient.Do`. -/
def HTTPClient.doRequest (c : HTTPClient) (env : Env) (req : Request) :
    Except ClientErr Response × Request × List Effect :=
  doWithRetry c env req 0

/-! ## §3 The retry bound -/

/-- An attempt sends at most one request, the one of its own attempt number. -/
theorem attempt_effects (c : HTTPClient) (env : Env) (req : Request) (n : Nat) :
    (attempt c env req n).2.2 = [] ∨ ∃ sent, (attempt c env req n).2.2 = [.send n sent] := by
  unfold attempt
  split
  · exact .inl rfl
  · split
    · exact .inl rfl
    · exact .inl rfl
    · dsimp only
      split <;> exact .inr ⟨_, rfl⟩

/-- From `retryCount = n ≤ MaxRetries`, `doWithRetry` sends at most `MaxRetries + 1 - n`
requests and retries at most `MaxRetries - n` times (each retry is one invalidation or one
wait). -/
theorem doWithRetry_bounded (c : HTTPClient) (env : Env) :
    ∀ (req : Request) (n : Nat), n ≤ maxRetries →
      (doWithRetry c env req n).2.2.countP Effect.isSend ≤ maxRetries + 1 - n ∧
        (doWithRetry c env req n).2.2.countP (fun e => !e.isSend) ≤ maxRetries - n := by
  have hatt : ∀ req n, (attempt c env req n).2.2.countP Effect.isSend ≤ 1 ∧
      (attempt c env req n).2.2.countP (fun e => !e.isSend) = 0 := fun req n => by
    rcases attempt_effects c env req n with h | ⟨sent, h⟩ <;> simp [h, Effect.isSend]
  intro req n
  induction req, n using doWithRetry.induct c env with
  -- the attempt failed before or at the send: at most one request, no retry
  | case1 req n e req' effs ha =>
    intro hn
    have := hatt req n
    simp only [doWithRetry_of_error ha, ha] at this ⊢
    omega
  -- the answer is handed back: one request, no retry
  | case2 req n resp req' effs ha r hh =>
    intro hn
    have := hatt req n
    simp only [doWithRetry_of_done ha hh, ha] at this ⊢
    omega
  -- a retry: one request and one reaction, then the rest from `n + 1`
  | case3 req n resp req' effs ha more hh ih =>
    intro hn
    obtain ⟨hlt, hmore⟩ := handle_eq_retry hh
    have hm : more.countP Effect.isSend = 0 ∧ more.countP (fun e => !e.isSend) = 1 := by
      rcases hmore with ⟨-, rfl⟩ | ⟨-, rfl⟩ | ⟨-, d, rfl⟩ <;> simp [Effect.isSend]
    have h₁ := hatt req n
    have h₂ := ih hlt
    simp only [doWithRetry_of_retry ha hh, ha, List.countP_append] at h₁ ⊢
    unfold maxRetries at *
    omega

/-- One logical call sends at most `MaxRetries + 1` requests, and retries at most `MaxRetries`
times. -/
theorem doRequest_bounded (c : HTTPClient) (env : Env) (req : Request) :
    (c.doRequest env req).2.2.countP Effect.isSend ≤ maxRetries + 1 ∧
      (c.doRequest env req).2.2.countP (fun e => !e.isSend) ≤ maxRetries :=
  doWithRetry_bounded c env req 0 (Nat.zero_le _)

/-- A server that answers every request with one status and conflict body, behind a working
token provider and session manager, and a call `GET /v1/notes`. -/
def answeringEnv (status : Nat) (conflict : Option ConflictBody) : Env :=
  ⟨"cid", fun _ => .ok "tok", fun _ => .ok ⟨"s1", "u", 1, 0, 0⟩,
    fun _ _ => .ok ⟨status, fun _ => none, conflict⟩, fun _ => 0, fun _ => none, fun _ => none⟩

/-- `GET /v1/notes`, with no header and no body. -/
def getNotes : Request := ⟨"GET", "/v1/notes", fun _ => none, none⟩

/-- A 401 and an epoch mismatch are each retried three times, not once: a server that answers
every request 401 gets four requests, with three token invalidations, before `Do` fails; one
that answers every request with an epoch-mismatch 409 gets four, with three session
invalidations. -/
theorem doRequest_retries_four_times :
    match (HTTPClient.mk false "" false).doRequest (answeringEnv 401 none) getNotes,
      (HTTPClient.mk false "" true).doRequest (answeringEnv 409 (some ⟨"epoch_mismatch", 7⟩)) getNotes with
    | (r, _, effs), (r', _, effs') =>
      r = .error (.msg "authentication failed after 3 retries") ∧ effs.countP Effect.isSend = 4 ∧
        effs.countP Effect.isInvalidateToken = 3 ∧
      r' = .error (.epochMismatch 7) ∧ effs'.countP Effect.isSend = 4 ∧
        effs'.countP Effect.isInvalidateSession = 3 := by
  have u3 := @doWithRetry_of_done ⟨false, "", false⟩ (answeringEnv 401 none)
    getNotes _ 3 _ _ _ rfl rfl
  have u2 := @doWithRetry_of_retry ⟨false, "", false⟩ (answeringEnv 401 none)
    getNotes _ 2 _ _ _ rfl rfl
  have u1 := @doWithRetry_of_retry ⟨false, "", false⟩ (answeringEnv 401 none)
    getNotes _ 1 _ _ _ rfl rfl
  have u0 := @doWithRetry_of_retry ⟨false, "", false⟩ (answeringEnv 401 none)
    getNotes _ 0 _ _ _ rfl rfl
  have e3 := @doWithRetry_of_done ⟨false, "", true⟩ (answeringEnv 409 (some ⟨"epoch_mismatch", 7⟩))
    getNotes _ 3 _ _ _ rfl rfl
  have e2 := @doWithRetry_of_retry ⟨false, "", true⟩ (answeringEnv 409 (some ⟨"epoch_mismatch", 7⟩))
    getNotes _ 2 _ _ _ rfl rfl
  have e1 := @doWithRetry_of_retry ⟨false, "", true⟩ (answeringEnv 409 (some ⟨"epoch_mismatch", 7⟩))
    getNotes _ 1 _ _ _ rfl rfl
  have e0 := @doWithRetry_of_retry ⟨false, "", true⟩ (answeringEnv 409 (some ⟨"epoch_mismatch", 7⟩))
    getNotes _ 0 _ _ _ rfl rfl
  -- the four attempts of each call, the last one first
  simp only [HTTPClient.doRequest, u0, u1, u2, u3, e0, e1, e2, e3]
  exact ⟨rfl, rfl, rfl, rfl, rfl, rfl⟩

/-! ## §4 Every attempt replays the caller's request -/

/-- The bytes of a body (`nil` has none). -/
def bodyBytes : Option Body → List UInt8
  | none => []
  | some b => b.bytes

/-- `Header.setAll` at one key: the last value the list gives it, or the header's own. -/
theorem Header.setAll_apply (h : Header) (kvs : List (String × String)) (k : String) :
    h.setAll kvs k = ((kvs.reverse.lookup k).map fun v => [v]).elim (h k) some := by
  induction kvs generalizing h with
  | nil => rfl
  | cons kv kvs ih =>
    obtain ⟨k₁, v₁⟩ := kv
    rw [Header.setAll, List.foldl_cons, ← Header.setAll, ih, List.reverse_cons]
    rcases hl : kvs.reverse.lookup k with _ | v
    · by_cases hk : k = k₁
      · subst hk; simp [List.lookup_append, hl]
      · have hk' : (k == k₁) = false := by simpa using hk
        simp [List.lookup_append, hl, List.lookup_cons, hk', Header.set_of_ne _ _ hk]
    · simp [List.lookup_append, hl]

/-- `Header.setAll` leaves the keys the list does not name. -/
theorem Header.setAll_of_forall_ne (h : Header) {kvs : List (String × String)} {k : String}
    (hk : ∀ kv ∈ kvs, kv.1 ≠ k) : h.setAll kvs k = h k := by
  induction kvs generalizing h with
  | nil => rfl
  | cons kv kvs ih =>
    rw [Header.setAll, List.foldl_cons, ← Header.setAll, ih _ fun kv' h' => hk kv' (List.mem_cons_of_mem _ h'),
      Header.set_of_ne _ _ (Ne.symm (hk kv (List.mem_cons_self _ _)))]

/-- What a request sent at attempt `n` of a call on `req` carries: the caller's method (`GET`
for an empty one), URL and body bytes; the caller's header under every key but the four
re-injected ones and the correlation ID's, keys compared exactly as the map holds them (so a
caller's `authorization` in lower case is copied); the call's correlation ID; and under the
re-injected keys exactly the authentication and session headers the token provider and the
session manager gave for attempt `n`. -/
structure Replays (c : HTTPClient) (env : Env) (req : Request) (n : Nat) (sent : Request) : Prop where
  method : sent.method = if req.method = "" then "GET" else req.method
  url : sent.url = req.url
  body : sent.body = some ⟨bodyBytes req.body, none⟩
  header : ∀ k, reinjected k = false → k ≠ correlationIdHeader → sent.header k = req.header k
  correlationId : sent.header correlationIdHeader = some [env.correlationId]
  authorization : sent.header "Authorization" =
    if c.devMode then none else (env.getToken n).toOption.map fun t => ["Bearer " ++ t]
  debugSub : sent.header "X-Debug-Sub" = if c.devMode then some [c.debugSub] else none
  session : sent.header "X-Sync-Session" =
    if c.hasSessionMgr then (env.ensureSession n).toOption.map fun s => [s.id] else none
  epoch : sent.header "X-Sync-Epoch" =
    if c.hasSessionMgr then (env.ensureSession n).toOption.map fun s => [toString s.epoch] else none

/-- A clone copies the caller's request and leaves it as it was. -/
theorem cloneRequest_ok {req clone : Request} (h : (cloneRequest req).1 = .ok clone) :
    (cloneRequest req).2 = req ∧ clone.method = (if req.method = "" then "GET" else req.method) ∧
      clone.url = req.url ∧ clone.body = some ⟨bodyBytes req.body, none⟩ ∧
      clone.header = fun k => if reinjected k then none else req.header k := by
  obtain ⟨m, u, hd, _ | ⟨bs, _ | e⟩⟩ := req <;>
    simp only [cloneRequest, readBody, newRequest] at h ⊢ <;> split_ifs at h ⊢ <;> cases h <;>
    exact ⟨rfl, rfl, rfl, rfl, rfl⟩

/-- A caller's body that reads without error is put back as it was. -/
theorem cloneRequest_snd {req : Request} (h : ∀ b ∈ req.body, b.err = none) :
    (cloneRequest req).2 = req := by
  obtain ⟨m, u, hd, _ | ⟨bs, _ | e⟩⟩ := req
  · simp only [cloneRequest, readBody, newRequest]; split_ifs <;> rfl
  · simp only [cloneRequest, readBody, newRequest]; split_ifs <;> rfl
  · cases h _ rfl

theorem attempt_snd (c : HTTPClient) (env : Env) (req : Request) (n : Nat) :
    (attempt c env req n).2.1 = (cloneRequest req).2 := by
  unfold attempt
  rcases cloneRequest req with ⟨_ | clone, req'⟩
  · rfl
  · dsimp only
    rcases authHeader c env n with _ | a <;> rcases sessionHeaders c env n with _ | ss
    · rfl
    · rfl
    · rfl
    · dsimp only; split <;> rfl

/-- An answered attempt left the caller's request as it was. -/
theorem attempt_snd_of_ok {c : HTTPClient} {env : Env} {req : Request} {n : Nat} {resp : Response}
    (h : (attempt c env req n).1 = .ok resp) : (attempt c env req n).2.1 = req := by
  rw [attempt_snd]
  unfold attempt at h
  rcases hc : cloneRequest req with ⟨_ | clone, req'⟩
  · rw [hc] at h; cases h
  · have := (cloneRequest_ok (congrArg Prod.fst hc)).1
    rwa [hc] at this

/-- The request an attempt sends replays the caller's, with the headers of that attempt. -/
theorem attempt_sent {c : HTTPClient} {env : Env} {req : Request} {n m : Nat} {sent : Request}
    (h : Effect.send m sent ∈ (attempt c env req n).2.2) : m = n ∧ Replays c env req n sent := by
  unfold attempt at h
  -- an attempt whose clone, token or session failed sends nothing
  rcases hc : cloneRequest req with ⟨_ | clone, req'⟩ <;> rw [hc] at h
  · cases h
  obtain ⟨-, hm, hu, hb, hh⟩ := cloneRequest_ok (show (cloneRequest req).1 = .ok clone by rw [hc])
  dsimp only at h
  rcases ha : authHeader c env n with _ | a <;> rcases hs : sessionHeaders c env n with _ | ss <;>
    simp only [ha, hs] at h
  · cases h
  · cases h
  · cases h
  -- the one request sent: the clone with the correlation ID and the injected headers
  have h' : m = n ∧
      sent = { clone with header := (clone.header.set correlationIdHeader env.correlationId).setAll (a :: ss) } := by
    split at h <;> simpa using h
  obtain ⟨rfl, rfl⟩ := h'
  have hkeys : ∀ kv ∈ a :: ss, reinjected kv.1 = true := by
    rcases authHeader_eq_ok ha with ⟨-, rfl⟩ | ⟨-, t, -, rfl⟩ <;>
      rcases sessionHeaders_eq_ok hs with ⟨-, s, -, rfl⟩ | ⟨-, rfl⟩ <;> simp [reinjected]
  have hother : ∀ k, reinjected k = false → k ≠ correlationIdHeader →
      ((clone.header.set correlationIdHeader env.correlationId).setAll (a :: ss)) k = req.header k :=
    fun k hk hc => by
      rw [Header.setAll_of_forall_ne _ fun kv hkv hkk => by simp [← hkk, hkeys kv hkv] at hk,
        Header.set_of_ne _ _ hc, hh]
      simp [hk]
  -- dev mode or a token, with or without a session manager: each injected header read back
  rcases authHeader_eq_ok ha with ⟨hd, rfl⟩ | ⟨hd, t, ht, rfl⟩ <;>
    rcases sessionHeaders_eq_ok hs with ⟨hsm, s, hse, rfl⟩ | ⟨hsm, rfl⟩
  all_goals
    clear h ha hs hc hkeys
    refine ⟨rfl, hm, hu, hb, hother, ?_, ?_, ?_, ?_, ?_⟩
    all_goals
      clear hother
      simp_all [Header.setAll_apply, List.lookup_cons, Except.toOption, reinjected, correlationIdHeader]

/-- What an attempt sends replays the caller's request. -/
theorem attempt_replays {c : HTTPClient} {env : Env} {req req' : Request} {n m : Nat}
    {x : Except ClientErr Response} {effs : List Effect} {sent : Request}
    (ha : attempt c env req n = (x, req', effs)) (h : Effect.send m sent ∈ effs) :
    Replays c env req m sent := by
  obtain ⟨rfl, hr⟩ := attempt_sent (show Effect.send m sent ∈ (attempt c env req n).2.2 by
    rw [ha]; exact h)
  exact hr

/-- An attempt that got an answer leaves the caller's request as it was. -/
theorem attempt_eq_ok {c : HTTPClient} {env : Env} {req req' : Request} {n : Nat}
    {resp : Response} {effs : List Effect} (ha : attempt c env req n = (.ok resp, req', effs)) :
    req' = req := by
  simpa [ha] using attempt_snd_of_ok (show (attempt c env req n).1 = .ok resp by rw [ha])

/-- Every request `doWithRetry` sends replays the caller's request with the headers of its own
attempt, and a caller's body that reads without error is left as it was. -/
theorem doWithRetry_replays (c : HTTPClient) (env : Env) :
    ∀ (req : Request) (n : Nat),
      (∀ m sent, Effect.send m sent ∈ (doWithRetry c env req n).2.2 → Replays c env req m sent) ∧
        ((∀ b ∈ req.body, b.err = none) → (doWithRetry c env req n).2.1 = req) := by
  intro req n
  induction req, n using doWithRetry.induct c env with
  -- a failed attempt: its request, if any, and a body read without error put back
  | case1 req n e req' effs ha =>
    rw [doWithRetry_of_error ha]
    refine ⟨fun m sent => attempt_replays ha, fun hb => ?_⟩
    simpa [ha, cloneRequest_snd hb] using attempt_snd c env req n
  -- an answer handed back: the attempt's one request
  | case2 req n resp req' effs ha r hh =>
    rw [doWithRetry_of_done ha hh]
    exact ⟨fun m sent => attempt_replays ha, fun _ => attempt_eq_ok ha⟩
  -- a retry: the attempt's request, a reaction that sends nothing, then the rest
  | case3 req n resp req' effs ha more hh ih =>
    obtain rfl := attempt_eq_ok ha
    rw [doWithRetry_of_retry ha hh]
    refine ⟨fun m sent h => ?_, ih.2⟩
    simp only [List.mem_append] at h
    rcases h with (h | h) | h
    · exact attempt_replays ha h
    · rcases (handle_eq_retry hh).2 with ⟨-, rfl⟩ | ⟨-, rfl⟩ | ⟨-, d, rfl⟩ <;> simp at h
    · exact ih.1 m sent h

/-- One logical call replays the caller's request on every attempt: each request sent has the
caller's method (`GET` for an empty one), URL and body bytes, the caller's header under every
key but exactly `Authorization`, `X-Sync-Session`, `X-Sync-Epoch`, `X-Debug-Sub` and
`X-Correlation-Id`, the call's one correlation ID, and under those four keys exactly the
authentication and session headers the token provider and the session manager gave for that
attempt. A caller's body that reads without error can be read in full afterwards. -/
theorem doRequest_replays (c : HTTPClient) (env : Env) (req : Request) :
    (∀ m sent, Effect.send m sent ∈ (c.doRequest env req).2.2 → Replays c env req m sent) ∧
      ((∀ b ∈ req.body, b.err = none) → (c.doRequest env req).2.1 = req) :=
  doWithRetry_replays c env req 0

/-- The caller's headers under the re-injected names give way only under the exact keys
`Header.Set` writes: a caller's own `X-Correlation-Id` is replaced by the call's ID, while its
`authorization`, written in lower case, is copied and sent beside the injected `Authorization`.
An empty method goes out as `GET`. -/
theorem doRequest_caller_headers :
    ∃ sent, Effect.send 0 sent ∈ ((HTTPClient.mk false "" false).doRequest (answeringEnv 200 none)
        ⟨"", "/v1/notes", fun k => if k = correlationIdHeader then some ["abc"]
          else if k = "authorization" then some ["Bearer mine"] else none, none⟩).2.2 ∧
      sent.header correlationIdHeader = some ["cid"] ∧ sent.method = "GET" ∧
      sent.header "authorization" = some ["Bearer mine"] ∧
      sent.header "Authorization" = some ["Bearer tok"] := by
  have h := @doWithRetry_of_done ⟨false, "", false⟩ (answeringEnv 200 none)
    ⟨"", "/v1/notes", fun k => if k = correlationIdHeader then some ["abc"]
      else if k = "authorization" then some ["Bearer mine"] else none, none⟩ _ 0 _ _ _ rfl rfl
  rw [HTTPClient.doRequest, h]
  exact ⟨_, List.mem_singleton_self _, rfl, rfl, rfl, rfl⟩

/-! ## §5 The rate-limit delay -/

theorem toInt64_of_lt {v : Int} (h₀ : 0 ≤ v) (h₁ : v < 2 ^ 63) : toInt64 v = v := by
  unfold toInt64
  rw [Int.emod_eq_of_lt (by omega) (by omega)]
  omega

/-- A positive integer `Retry-After` whose nanoseconds fit `time.Duration` is that many seconds. -/
theorem parseRetryAfter_seconds {parseTime : String → Option Int} {now : Int} {value : String}
    {n : Int} (h : atoi value = some n) (hn : 0 < n) (hfit : n * second < 2 ^ 63) :
    parseRetryAfter parseTime now value = n * second := by
  have hv : value ≠ "" := by rintro rfl; simp [atoi, digitsValue] at h
  simp only [parseRetryAfter, hv, if_false, h, Option.filter, hn, decide_True, if_true]
  exact toInt64_of_lt (by unfold second; omega) hfit

/-- Without an overflowing integer, `parseRetryAfter` gives no negative delay. -/
theorem parseRetryAfter_nonneg {parseTime : String → Option Int} {now : Int} {value : String}
    (hfit : ∀ s, atoi value = some s → 0 < s → s * second < 2 ^ 63) :
    0 ≤ parseRetryAfter parseTime now value := by
  unfold parseRetryAfter
  split_ifs
  · exact le_refl 0
  split
  · rename_i s hs
    obtain ⟨ha, hs0⟩ := Option.filter_eq_some.mp hs
    have hs0 : 0 < s := by simpa using hs0
    rw [toInt64_of_lt (by unfold second; omega) (hfit s ha hs0)]
    unfold second; omega
  · split
    · split_ifs <;> omega
    · exact le_refl 0

/-- Without an overflowing integer, the delay before a retry is positive: the header's seconds,
the time until its date, or the exponential backoff. -/
theorem handleRateLimit_wait_pos {env : Env} {resp : Response} {n : Nat} {effs : List Effect}
    (h : handleRateLimit env resp n = .retry effs)
    (hfit : ∀ s, atoi (resp.header.get "Retry-After") = some s → 0 < s → s * second < 2 ^ 63) :
    ∃ d, effs = [.wait d] ∧ 0 < d := by
  unfold handleRateLimit at h
  split_ifs at h with hn
  split at h
  · cases h
  cases h
  refine ⟨_, rfl, ?_⟩
  have hpos := @parseRetryAfter_nonneg env.parseTime (env.now n) _ hfit
  split_ifs with h0
  · exact Int.mul_pos (by decide)
      (Int.ofNat_pos.mpr (by rw [Nat.one_shiftLeft]; exact Nat.two_pow_pos _))
  · omega

/-- A `Retry-After` of 9223372037 seconds overflows `time.Duration`: the first retry waits a
negative time, that is not at all, and after the last attempt `ErrRateLimited` reports a
negative `RetryAfter`. -/
theorem handleRateLimit_overflow :
    (∃ d, handleRateLimit (answeringEnv 429 none)
        ⟨429, fun k => if k = "Retry-After" then some ["9223372037"] else none, none⟩ 0 = .retry [.wait d] ∧
        d < 0) ∧
      ∃ s, handleRateLimit (answeringEnv 429 none)
        ⟨429, fun k => if k = "Retry-After" then some ["9223372037"] else none, none⟩ maxRetries =
          .done (.error (.rateLimited s)) ∧ s < 0 :=
  ⟨⟨_, rfl, by decide⟩, ⟨_, rfl, by decide⟩⟩

/-! ## §6 What `Do` answers -/

/-- An answered attempt sent one request, and the answer is the server's to it. -/
theorem attempt_eq_ok_send {c : HTTPClient} {env : Env} {req req' : Request} {n : Nat}
    {resp : Response} {effs : List Effect} (ha : attempt c env req n = (.ok resp, req', effs)) :
    ∃ sent, effs = [.send n sent] ∧ env.send n sent = .ok resp := by
  unfold attempt at ha
  rcases hc : cloneRequest req with ⟨_ | clone, _⟩ <;> rw [hc] at ha
  · cases ha
  dsimp only at ha
  rcases hu : authHeader c env n with _ | a <;> rcases hs : sessionHeaders c env n with _ | ss <;>
    simp only [hu, hs] at ha
  · cases ha
  · cases ha
  · cases ha
  split at ha <;> simp only [Prod.mk.injEq, reduceCtorEq, false_and, Except.ok.injEq] at ha
  obtain ⟨rfl, -, rfl⟩ := ha
  exact ⟨_, rfl, ‹_›⟩

/-- Whether an effect is the one `doWithRetry` takes on an answer it retries: a token
invalidation for a 401, a session invalidation for a 409 whose body is an epoch mismatch, a
wait for a 429. -/
def Effect.answers (e : Effect) (resp : Response) : Bool :=
  match e with
  | .invalidateToken => resp.status == 401
  | .invalidateSession => resp.status == 409 && resp.conflict.any (·.error == "epoch_mismatch")
  | .wait _ => resp.status == 429
  | .send _ _ => false

/-- Two effects in a row of a trace: a request sent comes after anything but a request sent,
and anything else comes after a request sent whose answer called for it. -/
def Follows (env : Env) (a b : Effect) : Bool :=
  if b.isSend then !a.isSend
  else match a with
    | .send m sent => match env.send m sent with
      | .ok resp => b.answers resp
      | .error _ => false
    | _ => false

theorem Effect.isSend_of_answers {e : Effect} {resp : Response} (h : e.answers resp = true) :
    e.isSend = false := by
  cases e with
  | send => cases h
  | _ => rfl

/-- A retry is one effect, the one the answer calls for. -/
theorem handle_eq_retry_answers {c : HTTPClient} {env : Env} {resp : Response} {n : Nat}
    {effs : List Effect} (h : handle c env resp n = .retry effs) :
    ∃ e, effs = [e] ∧ e.answers resp = true := by
  unfold handle at h
  split_ifs at h with h401 h409 h429
  -- a 401: the token invalidation
  · unfold handleUnauthorized at h
    split_ifs at h
    cases h
    exact ⟨_, rfl, by simp [Effect.answers, h401]⟩
  -- an epoch-mismatch 409: the session invalidation
  · unfold handleConflict handleEpochMismatch at h
    split at h
    · rename_i b hb
      split_ifs at h with he
      cases h
      exact ⟨_, rfl, by simp [Effect.answers, h409, hb, he]⟩
    · cases h
  -- a 429: the wait
  · unfold handleRateLimit at h
    split_ifs at h
    split at h
    · cases h
    · cases h
      exact ⟨_, rfl, by simp [Effect.answers, h429]⟩

/-- The trace of `doWithRetry` starts with a request sent and alternates: each request sent is
followed, if by anything, by the one effect its answer called for, and that by the next
request sent. -/
theorem doWithRetry_trace (c : HTTPClient) (env : Env) :
    ∀ (req : Request) (n : Nat), (∀ e ∈ (doWithRetry c env req n).2.2.head?, e.isSend = true) ∧
      (doWithRetry c env req n).2.2.Chain' fun a b => Follows env a b := by
  intro req n
  induction req, n using doWithRetry.induct c env with
  -- a failed attempt: nothing, or the one request sent
  | case1 req n e req' effs ha =>
    rw [doWithRetry_of_error ha]
    rcases attempt_effects c env req n with h | ⟨sent, h⟩ <;> simp only [ha] at h <;> subst h <;>
      simp [Effect.isSend]
  -- an answer handed back: the one request sent
  | case2 req n resp req' effs ha r hh =>
    rw [doWithRetry_of_done ha hh]
    obtain ⟨sent, rfl, -⟩ := attempt_eq_ok_send ha
    simp [Effect.isSend]
  -- a retry: the request, the reaction its answer calls for, then a trace starting with a send
  | case3 req n resp req' effs ha more hh ih =>
    rw [doWithRetry_of_retry ha hh]
    obtain ⟨sent, rfl, hsend⟩ := attempt_eq_ok_send ha
    obtain ⟨e, rfl, he⟩ := handle_eq_retry_answers hh
    obtain ⟨ihh, ihc⟩ := ih
    have hes := Effect.isSend_of_answers he
    refine ⟨by simp [Effect.isSend], ?_⟩
    rw [List.singleton_append, List.cons_append, List.singleton_append, List.chain'_cons,
      List.chain'_cons']
    refine ⟨?_, fun y hy => ?_, ihc⟩
    · simp [Follows, hes, hsend, he]
    · simp [Follows, ihh y hy, hes]

/-- `Do` never drops its token or session, nor backs off, unless the server refused the
request it just sent: its trace starts with a request sent, and each effect after a request
sent is the token invalidation of a 401, the session invalidation of an epoch-mismatch 409, or
the wait of a 429 that request was answered with, and the next one is again a request sent. -/
theorem doRequest_trace_alternates (c : HTTPClient) (env : Env) (req : Request) :
    (∀ e ∈ (c.doRequest env req).2.2.head?, e.isSend = true) ∧
      (c.doRequest env req).2.2.Chain' fun a b => Follows env a b :=
  doWithRetry_trace c env req 0

end Toolbridge.Client
