import Toolbridge.Client.Session
import Toolbridge.Service.Columns
import Mathlib.Data.Nat.Digits

/-!
# The session handshake

`POST /v1/sync/sessions` runs between the two halves of the repository. The HTTP `BeginSession`
of the sync API creates a session and answers it as JSON, with its epoch repeated in the
`X-Sync-Epoch` header (`strconv.Itoa`). The client's `SessionManager.createSession` decodes
the body, and takes the header's epoch instead when `strconv.Atoi` parses it.

The body's fields carry the same JSON names on both sides (`id`, `userId`, `epoch`,
`createdAt`, `expiresAt`), so the decoded body is the session (`sessionResponse`). The header
is the decimal text of the epoch, which `atoi` reads back for every `int` (`atoi_toString`).
So the session a client caches from a successful answer is the server's, stamped with the
epoch the server holds for the user (`ensureSession_after_beginSessionHttp`).
-/

namespace Toolbridge.Client

/-! ## §1 Decimal text -/

theorem digitChar_digit :
    ∀ d < 10, (Nat.digitChar d).isDigit = true ∧ (Nat.digitChar d).toNat - 48 = d := by
  decide

/-- `Nat.toDigitsCore` puts the decimal digits of `n` before `ds`: it returns digits and the
characters of `ds`, at least one, and the fold of `digitsValue` over them reads `n` and then
`ds`. -/
theorem toDigitsCore_foldl : ∀ (fuel n : Nat) (ds : List Char), n < fuel →
    Nat.toDigitsCore 10 fuel n ds ≠ [] ∧
      (∀ c ∈ Nat.toDigitsCore 10 fuel n ds, c.isDigit = true ∨ c ∈ ds) ∧
      (Nat.toDigitsCore 10 fuel n ds).foldl (fun n c => 10 * n + ((c.toNat - 48 : Nat) : Int)) 0 =
        ds.foldl (fun n c => 10 * n + ((c.toNat - 48 : Nat) : Int)) (n : Int)
  | 0, _, _, h => absurd h (Nat.not_lt_zero _)
  | fuel + 1, n, ds, h => by
    have hd := digitChar_digit (n % 10) (Nat.mod_lt _ (by decide))
    unfold Nat.toDigitsCore
    dsimp only
    split_ifs with h0
    -- the last digit: `n` is below ten
    · refine ⟨List.cons_ne_nil _ _,
        fun c hc => (List.mem_cons.mp hc).imp (fun (h : c = _) => h ▸ hd.1) id, ?_⟩
      rw [List.foldl_cons, hd.2]
      congr 1
      omega
    -- a digit put before `ds`, and the digits of `n / 10` before it
    · obtain ⟨hne, hdig, hfold⟩ :=
        toDigitsCore_foldl fuel (n / 10) (Nat.digitChar (n % 10) :: ds) (by omega)
      refine ⟨hne, fun c hc => (hdig c hc).elim .inl
        fun hc => (List.mem_cons.mp hc).imp (fun (h : c = _) => h ▸ hd.1) id, ?_⟩
      rw [hfold, List.foldl_cons, hd.2]
      congr 1
      omega

/-- `digitsValue` reads the decimal digits of every natural number back. -/
theorem digitsValue_toDigits (n : Nat) : digitsValue (Nat.toDigits 10 n) = some (n : Int) := by
  obtain ⟨hne, hdig, hfold⟩ := toDigitsCore_foldl (n + 1) n [] (Nat.lt_succ_self n)
  have hall : (Nat.toDigits 10 n).all Char.isDigit = true :=
    List.all_eq_true.mpr fun c hc => (hdig c hc).resolve_right (List.not_mem_nil c)
  unfold digitsValue
  rw [if_pos ⟨hne, hall⟩]
  exact congrArg some hfold

/-- `strconv.Atoi(strconv.Itoa(v))` is `v` for every `int`. -/
theorem atoi_toString (v : Int) (h : -2 ^ 63 ≤ v ∧ v < 2 ^ 63) : atoi (toString v) = some v := by
  cases v with
  -- a natural number: its text starts with a digit, neither sign
  | ofNat m =>
    obtain ⟨hne, hdig, -⟩ := toDigitsCore_foldl (m + 1) m [] (Nat.lt_succ_self m)
    obtain ⟨c, cs, hc⟩ := List.exists_cons_of_ne_nil hne
    have hcd : c.isDigit = true :=
      (hdig c (hc ▸ List.mem_cons_self c cs)).resolve_right (List.not_mem_nil c)
    have hv := digitsValue_toDigits m
    show (match Nat.toDigitsCore 10 (m + 1) m [] with
      | '-' :: ds => (digitsValue ds).bind fun n => inInt64 (-n)
      | '+' :: ds => (digitsValue ds).bind inInt64
      | ds => (digitsValue ds).bind inInt64) = _
    rw [Nat.toDigits, hc] at hv
    rw [hc]
    split
    · rename_i heq; cases heq; exact absurd hcd (by decide)
    · rename_i heq; cases heq; exact absurd hcd (by decide)
    · rw [Int.ofNat_eq_coe] at h ⊢
      rw [hv, Option.some_bind, inInt64, if_pos h]
  -- a negative number: a minus sign, then the digits of its magnitude
  | negSucc m =>
    rw [show Int.negSucc m = -((m + 1 : Nat) : Int) from rfl] at h ⊢
    show (digitsValue (Nat.toDigits 10 (m + 1))).bind (fun n => inInt64 (-n)) = _
    rw [digitsValue_toDigits, Option.some_bind, inInt64, if_pos h]

/-! ## §2 The answer on the wire -/

/-- The body of `writeJSON(w, http.StatusCreated, session)` as the client's decoder fills its
`sessionResp`: the JSON names agree field by field, and times round-trip through RFC 3339. -/
def sessionResponse (s : Toolbridge.Session) : SessionResponse :=
  ⟨s.id, s.userId, s.epoch, s.createdAt, s.expiresAt⟩

/-- What the client's `httpClient.Do` returns for a successful HTTP `BeginSession`: 201, the
header `X-Sync-Epoch: strconv.Itoa(epoch)`, and the JSON body. -/
def beginSessionReply (s : Toolbridge.Session) : CreateReply :=
  ⟨201, toString s.epoch, .ok (sessionResponse s)⟩

/-- The client reads a session answer back as it was sent, the epoch included, whether it takes
the epoch from the header or from the body. -/
theorem fetchSession_beginSessionReply (token : String) (s : Toolbridge.Session)
    (h : -2 ^ 63 ≤ s.epoch ∧ s.epoch < 2 ^ 63) :
    fetchSession (.ok token) (.ok (beginSessionReply s)) =
      .ok ⟨s.id, s.userId, s.epoch, s.createdAt, s.expiresAt⟩ := by
  simp only [fetchSession, beginSessionReply, sessionResponse, atoi_toString _ h]
  split_ifs <;> simp_all

end Toolbridge.Client

namespace Toolbridge

/-- The session `BeginSession`'s store half answers: the id it drew, the caller, the times of the
store's clock, and the caller's epoch, which the lazy insert does not change. -/
theorem openSession_ok {f : Faults} {s : Server} {userID id : String} {now : Int} {sess : Session}
    (h : (openSession f s userID id now).1 = .ok sess) :
    sess = ⟨id, userID, now, now + sessionTtl, currentEpoch s.db userID⟩ := by
  have he := currentEpoch_initEpoch f s.db userID userID
  unfold openSession at h
  rcases hq : initEpoch f s.db userID with ⟨_ | (_ | epoch), db⟩ <;> rw [hq] at h he
  · cases h
  · dsimp only at h
    rcases hl : loadEpoch f db userID with e | epoch <;> rw [hl] at h
    · cases h
    · cases h
      rw [loadEpoch_ok hl, ← he]
      rfl
  · cases h
    have hi : epoch = currentEpoch (initEpoch f s.db userID).2 userID := initEpoch_some (by rw [hq])
    rw [hq] at hi
    rw [hi, ← he]
    rfl

/-- An `owner_state` epoch in range, or the 1 of a missing row. -/
theorem ColumnsInRange.currentEpoch_range {db : Db} (h : ColumnsInRange db) (o : String) :
    1 ≤ currentEpoch db o ∧ currentEpoch db o ≤ int4Max := by
  unfold currentEpoch
  rcases hs : db.ownerState o with _ | st
  · exact ⟨le_refl _, by decide⟩
  · exact h.epoch o st hs

end Toolbridge

namespace Toolbridge.Client

/-! ## §3 The handshake -/

/-- A client whose cache holds no session, asking a server whose `INT` columns are in range (a
fresh database's are, and every run keeps them): when the server's HTTP `BeginSession` answers
201, `EnsureSession` returns and caches the server's session, with the id the server drew, the
user, the server's creation and expiry times, and the epoch the server holds for the user (the
one `GetSyncState` reports), kept for 23 hours from its creation. -/
theorem ensureSession_after_beginSessionHttp (f : Faults) (s : Server) (userID id : String)
    (now : Int) (hs : ColumnsInRange s.db) {sess : Toolbridge.Session}
    (h : (beginSessionHttp f s userID id now).1 = (201, .ok sess))
    (expiry now₁ now₂ : Int) (token : String) :
    (SessionManager.mk none expiry).ensureSession now₁ now₂ (.ok token) (.ok (beginSessionReply sess)) =
      (.ok ⟨id, userID, currentEpoch s.db userID, now, now + sessionTtl⟩,
        ⟨some ⟨id, userID, currentEpoch s.db userID, now, now + sessionTtl⟩, now + sessionCacheTtl⟩) := by
  -- the session the server answered with
  have hsess : sess = ⟨id, userID, now, now + sessionTtl, currentEpoch s.db userID⟩ := by
    unfold beginSessionHttp at h
    split_ifs at h
    · simp at h
    rcases ho : openSession f s userID id now with ⟨_ | sess', s'⟩ <;> rw [ho] at h
    · simp at h
    · simp only [Prod.mk.injEq, Except.ok.injEq, true_and] at h
      subst h
      exact openSession_ok (by rw [ho])
  -- its epoch fits an `int`, so the header reads back
  have hr := hs.currentEpoch_range userID
  unfold int4Max at hr
  have hfetch := fetchSession_beginSessionReply token sess (by rw [hsess]; dsimp only; omega)
  subst hsess
  simp only [SessionManager.ensureSession, SessionManager.cached_none_session,
    SessionManager.createSession, hfetch, SessionManager.store]

/-- A user whose account was wiped once begins a session over HTTP: the client caches it with
epoch 2, read from the `X-Sync-Epoch` header the server wrote. -/
theorem ensureSession_after_wipe :
    let s := (Server.run ⟨Db.empty, []⟩ [.beginSession Faults.none "u" "s1" 0,
      .wipeAccount Faults.none "u" "WIPE" 1]).2
    (SessionManager.mk none zeroTime).ensureSession 2 2 (.ok "token")
        (.ok (beginSessionReply ⟨"s2", "u", 2, 2 + sessionTtl, 2⟩)) =
      (.ok ⟨"s2", "u", currentEpoch s.db "u", 2, 2 + sessionTtl⟩,
        ⟨some ⟨"s2", "u", currentEpoch s.db "u", 2, 2 + sessionTtl⟩, 2 + sessionCacheTtl⟩) :=
  ensureSession_after_beginSessionHttp Faults.none (Server.run ⟨Db.empty, []⟩
      [.beginSession Faults.none "u" "s1" 0, .wipeAccount Faults.none "u" "WIPE" 1]).2 "u" "s2" 2
    (Server.run_columnsInRange _ ColumnsInRange.empty) rfl _ _ _ _

end Toolbridge.Client
