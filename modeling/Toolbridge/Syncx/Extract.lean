import Toolbridge.Syncx.Json

/-!
# The sync header of a payload

The push paths read a thin structured header out of the opaque client payload
(§4.B): the `uid`, the `sync` block (`updatedAtMs`, `deletedAtMs`, `version`) and, for
the child kinds, the parent reference. The REST layer writes that header back before it
delegates to a push path (§4.I).

None of `syncx` is among the sources: every function here is modelled from the spec. The
key names are the ones the sources and the spec use (`uid`, `sync.version`,
`parentType`, `parentUid`, `chatUid`).
-/

namespace Toolbridge

/-- The sync header `syncx.ExtractCommon` lifts out of a payload. -/
structure Extracted where
  uid : Uuid
  updatedAtMs : Int
  deletedAtMs : Option Int
  version : Int
  deriving DecidableEq, Repr

/-- The parent reference a payload names: none for the root kinds, `(parent_type,
parent_uid)` for a comment, `chat_uid` for a chat message. It is stored in the row's
parent columns. -/
inductive ParentRef where
  | none
  | parent (parentType : String) (parentUid : Uuid)
  | chat (chatUid : Uuid)
  deriving DecidableEq, Repr

/-- Modelled from the spec: the `invalid-payload` error of the extractor (§7). -/
def invalidPayload (detail : String) : String := "invalid payload: " ++ detail

theorem invalidPayload_ne_empty (detail : String) : invalidPayload detail ≠ "" := by
  intro h
  have := congrArg String.length h
  simp [invalidPayload, String.length_append] at this
  exact absurd this.1 (by decide)

/-- Modelled from the spec: `syncx.GetString`, a string field of a payload. -/
def getString (m : Json) (k : String) : Option String :=
  match m.get? k with
  | some (.str s) => some s
  | _ => none

/-- An integral field of a payload. -/
def getInt (m : Json) (k : String) : Option Int :=
  match m.get? k with
  | some (.num n) => some n
  | _ => none

/-- A required UUID field of a payload. -/
def getUuid (m : Json) (k : String) : Except String Uuid :=
  match getString m k with
  | none => .error (invalidPayload ("missing " ++ k))
  | some s => match parseUuid s with
    | some u => .ok u
    | none => .error (invalidPayload ("malformed uuid in " ++ k ++ ": " ++ s))

/-- The `sync` block of a payload, `item["sync"].(map[string]any)`: an empty one when the
payload has none or it is not an object. -/
def syncOf (item : Json) : Json :=
  match item.get? "sync" with
  | some (.obj fields) => .obj fields
  | _ => .obj []

/-- Modelled from the spec: `syncx.ExtractCommon`. The `uid` and `sync.updatedAtMs` are
required, `sync.deletedAtMs` is optional and `sync.version` is clamped to at least 1. -/
def extractCommon (item : Json) : Except String Extracted := do
  let uid ← getUuid item "uid"
  let sync := syncOf item
  match getInt sync "updatedAtMs" with
  | none => .error (invalidPayload "missing sync.updatedAtMs")
  | some ms => pure ⟨uid, ms, getInt sync "deletedAtMs", max ((getInt sync "version").getD 1) 1⟩

/-- The header of a root kind, which names no parent. -/
def extractRoot (item : Json) : Except String (Extracted × ParentRef) :=
  (extractCommon item).map (·, .none)

/-- Modelled from the spec: `syncx.ExtractComment`, the header with `parentType` and the
required `parentUid`. -/
def extractComment (item : Json) : Except String (Extracted × ParentRef) := do
  let ext ← extractCommon item
  let pu ← getUuid item "parentUid"
  pure (ext, .parent ((getString item "parentType").getD "") pu)

/-- Modelled from the spec: `syncx.ExtractChatMessage`, the header with the required
`chatUid`. -/
def extractChatMessage (item : Json) : Except String (Extracted × ParentRef) := do
  let ext ← extractCommon item
  let cu ← getUuid item "chatUid"
  pure (ext, .chat cu)

theorem getUuid_error {m : Json} {k e : String} (h : getUuid m k = .error e) :
    ∃ d, e = invalidPayload d := by
  unfold getUuid at h
  split at h
  · exact ⟨_, (Except.error.inj h).symm⟩
  · split at h
    · cases h
    · exact ⟨_, (Except.error.inj h).symm⟩

theorem extractCommon_error {item : Json} {e : String} (h : extractCommon item = .error e) :
    ∃ d, e = invalidPayload d := by
  unfold extractCommon at h
  cases hu : getUuid item "uid" with
  | error e' => rw [hu] at h; cases h; exact getUuid_error hu
  | ok u =>
    rw [hu] at h
    simp only [bind, Except.bind] at h
    split at h
    · exact ⟨_, (Except.error.inj h).symm⟩
    · cases h

/-- Every error of the extractors is an `invalid-payload` error. -/
theorem extract_error {item : Json} {e : String}
    (h : extractRoot item = .error e ∨ extractComment item = .error e ∨
      extractChatMessage item = .error e) : ∃ d, e = invalidPayload d := by
  rcases h with h | h | h <;>
    simp only [extractRoot, extractComment, extractChatMessage, bind, Except.bind, Except.map] at h <;>
    cases hc : extractCommon item <;> simp only [hc] at h
  · cases h; exact extractCommon_error hc
  · cases h
  · cases h; exact extractCommon_error hc
  · cases hu : getUuid item "parentUid" <;> simp only [hu] at h
    · cases h; exact getUuid_error hu
    · cases h
  · cases h; exact extractCommon_error hc
  · cases hu : getUuid item "chatUid" <;> simp only [hu] at h
    · cases h; exact getUuid_error hu
    · cases h

/-! ## Server-side mutations (REST layer) -/

/-- Modelled from the spec: `syncx.EnsureMonotonicTimestamp(existingMs)` read at `now`,
`max(now_ms, stored_ms + 1)` (§4.I). -/
def ensureMonotonicTimestamp (now existingMs : Int) : Int := max now (existingMs + 1)

/-- Modelled from the spec: `syncx.BuildServerMutation(payload, ts, setDeleted)`, the
payload with `sync.updatedAtMs` set to the write timestamp and, for a delete,
`sync.deletedAtMs` set to it as well. -/
def buildServerMutation (payload : Json) (ts : Int) (setDeleted : Bool) : Json :=
  let sync := (syncOf payload).set "updatedAtMs" (.num ts)
  payload.set "sync" (if setDeleted then sync.set "deletedAtMs" (.num ts) else sync)

/-- The `sync` block of a payload is an object. -/
theorem syncOf_obj (item : Json) : ∃ fields, syncOf item = .obj fields := by
  unfold syncOf
  split <;> exact ⟨_, rfl⟩

/-- Stamping leaves the payload's `uid`. -/
theorem getUuid_buildServerMutation (payload : Json) (ts : Int) (setDeleted : Bool) :
    getUuid (buildServerMutation payload ts setDeleted) "uid" = getUuid payload "uid" := by
  simp only [getUuid, getString, buildServerMutation,
    Json.get?_set_of_ne _ _ (by decide : ("uid" : String) ≠ "sync")]

/-- Stamping an object writes the stamp into its `sync.updatedAtMs`. -/
theorem getInt_syncOf_buildServerMutation (fields : List (String × Json)) (ts : Int)
    (setDeleted : Bool) :
    getInt (syncOf (buildServerMutation (.obj fields) ts setDeleted)) "updatedAtMs" = some ts := by
  obtain ⟨sf, hsf⟩ := syncOf_obj (.obj fields)
  obtain ⟨sf', hsf'⟩ := Json.set_obj sf "updatedAtMs" (.num ts)
  have hup : (Json.obj sf').get? "updatedAtMs" = some (.num ts) := by
    rw [← hsf']; exact Json.get?_set_self ..
  simp only [buildServerMutation, hsf, hsf']
  unfold syncOf
  rw [Json.get?_set_self]
  cases setDeleted
  · simp only [Bool.false_eq_true, if_false, getInt, hup]
  · obtain ⟨sf'', hsf''⟩ := Json.set_obj sf' "deletedAtMs" (.num ts)
    simp only [if_true, hsf'', getInt]
    rw [← hsf'', Json.get?_set_of_ne _ _ (by decide), hup]

/-- Stamping an object sets its `sync.deletedAtMs` for a delete, and leaves it otherwise. -/
theorem getInt_deletedAtMs_buildServerMutation (fields : List (String × Json)) (ts : Int)
    (setDeleted : Bool) :
    getInt (syncOf (buildServerMutation (.obj fields) ts setDeleted)) "deletedAtMs" =
      if setDeleted then some ts else getInt (syncOf (.obj fields)) "deletedAtMs" := by
  obtain ⟨sf, hsf⟩ := syncOf_obj (.obj fields)
  obtain ⟨sf', hsf'⟩ := Json.set_obj sf "updatedAtMs" (.num ts)
  simp only [buildServerMutation, hsf, hsf']
  cases setDeleted
  · simp only [Bool.false_eq_true, if_false, syncOf, Json.get?_set_self, getInt]
    rw [← hsf', Json.get?_set_of_ne _ _ (by decide)]
  · obtain ⟨sf'', hsf''⟩ := Json.set_obj sf' "deletedAtMs" (.num ts)
    simp only [if_true, hsf'', syncOf, Json.get?_set_self, getInt]
    rw [← hsf'', Json.get?_set_self]

/-- The header of a stamped payload: the payload's `uid`, the stamp as `updatedAtMs`, and as
`deletedAtMs` for a delete. -/
theorem extractCommon_buildServerMutation {payload : Json} {ts : Int} {setDeleted : Bool}
    {ext : Extracted} (h : extractCommon (buildServerMutation payload ts setDeleted) = .ok ext) :
    getUuid payload "uid" = .ok ext.uid ∧ ext.updatedAtMs = ts ∧
      ext.deletedAtMs = if setDeleted then some ts else getInt (syncOf payload) "deletedAtMs" := by
  unfold extractCommon at h
  rw [getUuid_buildServerMutation] at h
  rcases hu : getUuid payload "uid" with e | u
  · simp [hu, bind, Except.bind] at h
  cases payload with
  | obj fields =>
    simp only [hu, getInt_syncOf_buildServerMutation, bind, Except.bind, pure, Except.pure,
      Except.ok.injEq] at h
    subst h
    exact ⟨rfl, rfl, getInt_deletedAtMs_buildServerMutation fields ts setDeleted⟩
  | _ => simp [getUuid, getString, Json.get?] at hu

end Toolbridge
