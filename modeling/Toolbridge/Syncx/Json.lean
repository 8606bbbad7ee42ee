import Mathlib.Data.Fin.Basic
import Mathlib.Tactic.Ring

/-!
# Payloads, UUIDs and wire timestamps

The entity payload is the client's JSON object. The server stores it verbatim in
`payload_json`, hands it back in pulls, and looks into it only through the `syncx`
extractors (§4.B of the spec): `uid`, the `sync` block, and the parent references of the
child kinds.

The `syncx` package itself is not among the sources; what it provides here (the UUID
text, the RFC 3339 stamps) follows the spec and the libraries it names.
-/

namespace Toolbridge

/-! ## JSON values -/

/-- A JSON value as `encoding/json` decodes it into `map[string]any`. Numbers are the
integers the sync header carries; `nonFinite` is the NaN or infinity that a protobuf
`Struct` (the gRPC item) can hold and that `json.Marshal` rejects. -/
inductive Json where
  | null
  | bool (b : Bool)
  | num (n : Int)
  | nonFinite
  | str (s : String)
  | arr (xs : List Json)
  | obj (fields : List (String × Json))
  deriving Repr, Inhabited

namespace Json

mutual
/-- Equality of JSON values is decidable; the derive handler does not reach nested types. -/
def decEq : (a b : Json) → Decidable (a = b)
  | .null, b => match b with
    | .null => isTrue rfl
    | .bool _ | .num _ | .nonFinite | .str _ | .arr _ | .obj _ => isFalse (by intro h; cases h)
  | .bool x, b => match b with
    | .bool y => if h : x = y then isTrue (h ▸ rfl) else isFalse (by intro e; cases e; exact h rfl)
    | .null | .num _ | .nonFinite | .str _ | .arr _ | .obj _ => isFalse (by intro h; cases h)
  | .num x, b => match b with
    | .num y => if h : x = y then isTrue (h ▸ rfl) else isFalse (by intro e; cases e; exact h rfl)
    | .null | .bool _ | .nonFinite | .str _ | .arr _ | .obj _ => isFalse (by intro h; cases h)
  | .nonFinite, b => match b with
    | .nonFinite => isTrue rfl
    | .null | .bool _ | .num _ | .str _ | .arr _ | .obj _ => isFalse (by intro h; cases h)
  | .str x, b => match b with
    | .str y => if h : x = y then isTrue (h ▸ rfl) else isFalse (by intro e; cases e; exact h rfl)
    | .null | .bool _ | .num _ | .nonFinite | .arr _ | .obj _ => isFalse (by intro h; cases h)
  | .arr xs, b => match b with
    | .arr ys => match decEqList xs ys with
      | isTrue h => isTrue (h ▸ rfl)
      | isFalse h => isFalse (by intro e; cases e; exact h rfl)
    | .null | .bool _ | .num _ | .nonFinite | .str _ | .obj _ => isFalse (by intro h; cases h)
  | .obj xs, b => match b with
    | .obj ys => match decEqFields xs ys with
      | isTrue h => isTrue (h ▸ rfl)
      | isFalse h => isFalse (by intro e; cases e; exact h rfl)
    | .null | .bool _ | .num _ | .nonFinite | .str _ | .arr _ => isFalse (by intro h; cases h)
/-- `decEq` on arrays. -/
def decEqList : (xs ys : List Json) → Decidable (xs = ys)
  | [], [] => isTrue rfl
  | [], _ :: _ | _ :: _, [] => isFalse (by intro h; cases h)
  | x :: xs, y :: ys => match decEq x y, decEqList xs ys with
    | isTrue h₁, isTrue h₂ => isTrue (h₁ ▸ h₂ ▸ rfl)
    | isFalse h₁, _ => isFalse (by intro e; cases e; exact h₁ rfl)
    | _, isFalse h₂ => isFalse (by intro e; cases e; exact h₂ rfl)
/-- `decEq` on objects. -/
def decEqFields : (xs ys : List (String × Json)) → Decidable (xs = ys)
  | [], [] => isTrue rfl
  | [], _ :: _ | _ :: _, [] => isFalse (by intro h; cases h)
  | (k, x) :: xs, (k', y) :: ys =>
    if hk : k = k' then match decEq x y, decEqFields xs ys with
      | isTrue h₁, isTrue h₂ => isTrue (hk ▸ h₁ ▸ h₂ ▸ rfl)
      | isFalse h₁, _ => isFalse (by intro e; cases e; exact h₁ rfl)
      | _, isFalse h₂ => isFalse (by intro e; cases e; exact h₂ rfl)
    else isFalse (by intro e; cases e; exact hk rfl)
end

instance : DecidableEq Json := decEq

/-- `m[key]` on an object; `none` for a missing key or a non-object. -/
def get? : Json → String → Option Json
  | .obj fields, k => fields.lookup k
  | _, _ => none

/-- `m[key] = v` on an object: the field is replaced in place, or appended. -/
def set : Json → String → Json → Json
  | .obj fields, k, v =>
    if fields.any (·.1 == k) then .obj (fields.map fun p => if p.1 == k then (k, v) else p)
    else .obj (fields ++ [(k, v)])
  | j, _, _ => j

theorem lookup_map_set {fields : List (String × Json)} {k k' : String} (v : Json) (h : k' ≠ k) :
    (fields.map fun p => if p.1 == k then (k, v) else p).lookup k' = fields.lookup k' := by
  have hne : (k' == k) = false := by simpa using h
  induction fields with
  | nil => rfl
  | cons p ps ih =>
    obtain ⟨k₁, v₁⟩ := p
    by_cases hk : k₁ = k
    · subst hk
      simp only [List.map_cons, beq_self_eq_true, if_true, List.lookup_cons, hne, ih]
    · have hk' : (k₁ == k) = false := by simpa using hk
      simp only [List.map_cons, hk', Bool.false_eq_true, if_false, List.lookup_cons, ih]

/-- Setting a field leaves the other fields as they were. -/
@[simp] theorem get?_set_of_ne (j : Json) {k k' : String} (v : Json) (h : k' ≠ k) :
    (j.set k v).get? k' = j.get? k' := by
  have hne : (k' == k) = false := by simpa using h
  cases j with
  | obj fields =>
    simp only [set]
    split_ifs
    · exact lookup_map_set v h
    · simp only [get?, List.lookup_append, List.lookup_cons, hne, List.lookup_nil, Option.or_none]
  | _ => rfl

/-- Setting a field of an object, then reading it, gives the value set. -/
@[simp] theorem get?_set_self (fields : List (String × Json)) (k : String) (v : Json) :
    ((Json.obj fields).set k v).get? k = some v := by
  simp only [set]
  split_ifs with hany
  -- the field was there: replaced in place
  · simp only [get?]
    induction fields with
    | nil => simp at hany
    | cons p ps ih =>
      obtain ⟨k₁, v₁⟩ := p
      by_cases hk : k₁ = k
      · subst hk
        simp only [List.map_cons, beq_self_eq_true, if_true, List.lookup_cons_self]
      · have hk' : (k₁ == k) = false := by simpa using hk
        have hk'' : (k == k₁) = false := by simpa using Ne.symm hk
        rw [List.any_cons, hk', Bool.false_or] at hany
        simp only [List.map_cons, hk', Bool.false_eq_true, if_false, List.lookup_cons, hk'', ih hany]
  -- it was not: appended
  · have hnone : fields.lookup k = none := by
      rw [List.lookup_eq_none_iff]
      intro p hp
      have : ¬ p.1 = k := fun h => hany (List.any_eq_true.mpr ⟨p, hp, by simp [h]⟩)
      simpa using Ne.symm this
    simp [get?, List.lookup_append, hnone]

/-- Setting a field of an object gives an object. -/
theorem set_obj (fields : List (String × Json)) (k : String) (v : Json) :
    ∃ fields', (Json.obj fields).set k v = .obj fields' := by
  simp only [set]
  split_ifs <;> exact ⟨_, rfl⟩

/-- `delete(m, key)` on an object. -/
def erase : Json → String → Json
  | .obj fields, k => .obj (fields.filter (·.1 != k))
  | j, _ => j

mutual
/-- Whether `json.Marshal` accepts the value: it rejects NaN and the infinities. -/
def marshalable : Json → Bool
  | .nonFinite => false
  | .arr xs => marshalableList xs
  | .obj fields => marshalableFields fields
  | _ => true
/-- `marshalable` on every element of an array. -/
def marshalableList : List Json → Bool
  | [] => true
  | x :: xs => marshalable x && marshalableList xs
/-- `marshalable` on every value of an object. -/
def marshalableFields : List (String × Json) → Bool
  | [] => true
  | (_, x) :: xs => marshalable x && marshalableFields xs
end

end Json

/-- `json.Marshal(item)`: the payload text stored in `payload_json`, or the marshalling
error. The stored JSONB is read back as the same value. -/
def jsonMarshal (item : Json) : Except String Json :=
  if item.marshalable then .ok item else .error "json: unsupported value: NaN"

/-- What is stored is the value marshalled. -/
theorem jsonMarshal_ok {item payload : Json} (h : jsonMarshal item = .ok payload) : payload = item := by
  unfold jsonMarshal at h
  split at h
  · exact (Except.ok.inj h).symm
  · cases h

/-! ## UUIDs -/

/-- `uuid.UUID`: sixteen bytes. PostgreSQL orders `uuid` bytewise, which is the order of
the 128-bit big-endian number. -/
abbrev Uuid := Fin (2 ^ 128)

/-- `uuid.Nil`, the all-zero UUID. -/
def Uuid.nil : Uuid := 0

/-- `mapM g` undoes `map f` on the values `g` inverts. -/
theorem mapM_map_of_inverse {α β : Type} {f : α → β} {g : β → Option α} :
    ∀ {xs : List α}, (∀ x ∈ xs, g (f x) = some x) → (xs.map f).mapM g = some xs
  | [], _ => rfl
  | x :: xs, h => by
    simp only [List.map_cons, List.mapM_cons, h x (List.mem_cons_self _ _),
      mapM_map_of_inverse fun y hy => h y (List.mem_cons_of_mem _ hy)]
    rfl

/-- The `w` lowest bytes of `n`, most significant first. -/
def bytesOf : Nat → Nat → List UInt8
  | 0, _ => []
  | w + 1, n => (n / 256 ^ w).toUInt8 :: bytesOf w n

/-- The number bytes spell, most significant first. -/
def valueOfBytes : List UInt8 → Nat
  | [] => 0
  | b :: bs => b.toNat * 256 ^ bs.length + valueOfBytes bs

/-- The UUID of sixteen bytes. -/
def Uuid.ofBytes (bs : List UInt8) : Uuid := ⟨valueOfBytes bs % 2 ^ 128, Nat.mod_lt _ (by decide)⟩

/-- `hex.Encode`: each byte as two lower-case digits, `hextable[v>>4]` and `hextable[v&0x0f]`. -/
def hexEncode (bs : List UInt8) : List Char :=
  bs.flatMap fun v => [(v >>> 4).toNat.digitChar, (v &&& 0x0f).toNat.digitChar]

/-- `encodeHex`: bytes `[:4]`, `[4:6]`, `[6:8]`, `[8:10]` and `[10:]` in hexadecimal, joined
by dashes. -/
def encodeHex (b : List UInt8) : List Char :=
  hexEncode (b.take 4) ++ '-' :: (hexEncode ((b.drop 4).take 2) ++ '-' ::
    (hexEncode ((b.drop 6).take 2) ++ '-' :: (hexEncode ((b.drop 8).take 2) ++ '-' ::
      hexEncode (b.drop 10))))

/-- `UUID.String()`: the canonical lower-case `xxxxxxxx-xxxx-xxxx-xxxx-xxxxxxxxxxxx` text. -/
def Uuid.toString (u : Uuid) : String := String.mk (encodeHex (bytesOf 16 u.val))

/-- The bytes of a Go string, its UTF-8 encoding: what `len(s)` counts and `s[i]` reads. -/
def goBytes (s : String) : List UInt8 := s.toUTF8.data.toList

/-- `xvalues[b]`: the value of a hexadecimal digit, either case, and 255 for any other byte. -/
def xvalue (b : UInt8) : UInt8 :=
  if 48 ≤ b ∧ b ≤ 57 then b - 48
  else if 97 ≤ b ∧ b ≤ 102 then b - 87
  else if 65 ≤ b ∧ b ≤ 70 then b - 55
  else 255

/-- `xtob`: the byte two hexadecimal digits spell, and whether both are digits. -/
def xtob (x1 x2 : UInt8) : UInt8 × Bool :=
  (xvalue x1 <<< 4 ||| xvalue x2, xvalue x1 != 255 && xvalue x2 != 255)

/-- The loops of `uuid.Parse`: byte `i` of the UUID from the digits at `x` and `x + 1`, for
each `(i, x)` in turn, up to the first pair that is not two digits. The 32-digit form stores
that pair's byte before it stops (`uuid[i], ok = xtob(..)`); the dashed form stops first
(`v, ok := xtob(..)`). -/
def readPairs (storeBad : Bool) (s : List UInt8) : List UInt8 → List (Nat × Nat) → List UInt8 × Bool
  | uuid, [] => (uuid, true)
  | uuid, (i, x) :: ixs =>
    match xtob (s.getD x 0) (s.getD (x + 1) 0) with
    | (v, true) => readPairs storeBad s (uuid.set i v) ixs
    | (v, false) => (if storeBad then uuid.set i v else uuid, false)

/-- `var uuid UUID`, sixteen zero bytes. -/
def zeroBytes : List UInt8 := List.replicate 16 0

/-- The dashed form `xxxxxxxx-xxxx-xxxx-xxxx-xxxxxxxxxxxx` from its first byte: the four
dashes, then the sixteen pairs. -/
def parseDashed (s : List UInt8) : List UInt8 × Bool :=
  if s.getD 8 0 ≠ 45 ∨ s.getD 13 0 ≠ 45 ∨ s.getD 18 0 ≠ 45 ∨ s.getD 23 0 ≠ 45 then (zeroBytes, false)
  else readPairs false s zeroBytes [0, 2, 4, 6, 9, 11, 14, 16, 19, 21, 24, 26, 28, 30, 32, 34].enum

/-- ASCII lower case. `strings.EqualFold` against `urn:uuid:` compares no more: no other
character folds to one of its letters. -/
def asciiLower (b : UInt8) : UInt8 := if 65 ≤ b ∧ b ≤ 90 then b + 32 else b

/-- The switch of `uuid.Parse` on `len(s)`: the dashed form bare (36 bytes), after a
`urn:uuid:` prefix in either case (45), inside braces it does not check (38), and 32 digits. -/
def parseBytes (s : List UInt8) : List UInt8 × Bool :=
  if s.length = 36 then parseDashed s
  else if s.length = 45 then
    if (s.take 9).map asciiLower = goBytes "urn:uuid:" then parseDashed (s.drop 9)
    else (zeroBytes, false)
  else if s.length = 38 then parseDashed (s.drop 1)
  else if s.length = 32 then readPairs true s zeroBytes ((List.range 16).map fun i => (i, 2 * i))
  else (zeroBytes, false)

/-- `uuid.Parse`: the UUID and whether there was no error. On an error it is the bytes read
so far, the rest zero, as Go returns them. -/
def uuidParse (s : String) : Uuid × Bool :=
  (Uuid.ofBytes (parseBytes (goBytes s)).1, (parseBytes (goBytes s)).2)

/-- `uuid.Parse` with its error checked. -/
def parseUuid (s : String) : Option Uuid :=
  if (uuidParse s).2 then some (uuidParse s).1 else none

/-! ## The UUID text round trip -/

/-- The byte of an ASCII character. -/
def asciiByte (c : Char) : UInt8 := c.val.toUInt8

set_option maxRecDepth 8000 in
/-- `xtob` reads back the two digits `hex.Encode` writes for a byte. -/
theorem xtob_hexEncode (v : UInt8) :
    xtob (asciiByte (v >>> 4).toNat.digitChar) (asciiByte (v &&& 0x0f).toNat.digitChar) =
      (v, true) := by
  have h : ∀ n (h : n < 256), xtob (asciiByte (UInt8.mk ⟨n, h⟩ >>> 4).toNat.digitChar)
      (asciiByte (UInt8.mk ⟨n, h⟩ &&& 0x0f).toNat.digitChar) = (UInt8.mk ⟨n, h⟩, true) := by
    decide
  exact h v.val.val v.val.isLt

set_option maxRecDepth 8000 in
theorem hexEncode_byte_ascii (v : UInt8) : ∀ c ∈ hexEncode [v], c.val ≤ 0x7f := by
  have h : ∀ n (h : n < 256), ∀ c ∈ hexEncode [UInt8.mk ⟨n, h⟩], c.val ≤ 0x7f := by decide
  exact h v.val.val v.val.isLt

theorem encodeHex_ascii (b : List UInt8) : ∀ c ∈ encodeHex b, c.val ≤ 0x7f := by
  have hx : ∀ bs, ∀ c ∈ hexEncode bs, c.val ≤ 0x7f := fun bs c hc => by
    obtain ⟨v, -, hv⟩ := List.mem_flatMap.mp hc
    exact hexEncode_byte_ascii v c (by simpa [hexEncode] using hv)
  simp only [encodeHex, List.mem_append, List.mem_cons]
  rintro c (h | rfl | h | rfl | h | rfl | h | rfl | h) <;> first | decide | exact hx _ c h

/-- An ASCII text is its own bytes. -/
theorem goBytes_ascii : ∀ {cs : List Char}, (∀ c ∈ cs, c.val ≤ 0x7f) →
    goBytes ⟨cs⟩ = cs.map asciiByte
  | [], _ => rfl
  | c :: cs, h => by
    have ih := goBytes_ascii fun d hd => h d (List.mem_cons_of_mem _ hd)
    simp only [goBytes, String.toUTF8, List.flatMap_cons] at ih ⊢
    simp [String.utf8EncodeChar, h c (List.mem_cons_self _ _), ih, asciiByte]

/-- The dashed form reads back the sixteen bytes `encodeHex` writes. -/
theorem parseDashed_encodeHex (n : Nat) :
    parseDashed ((encodeHex (bytesOf 16 n)).map asciiByte) = (bytesOf 16 n, true) := by
  simp only [bytesOf, encodeHex, hexEncode, List.take, List.drop, List.flatMap_cons,
    List.flatMap_nil, List.cons_append, List.nil_append, List.map_cons, List.map_nil,
    List.singleton_append]
  dsimp only [parseDashed, List.enum, List.enumFrom, List.getD_cons_succ, List.getD_cons_zero]
  -- one pair a step: its two digits, then `xtob` on them
  iterate 16 (dsimp only [readPairs, List.getD_cons_succ, List.getD_cons_zero]; rw [xtob_hexEncode])
  simp only [show asciiByte '-' = 45 from rfl, ne_eq, not_true_eq_false, or_self, if_false]
  simp only [zeroBytes, List.replicate, List.set_cons_zero, List.set_cons_succ]

theorem length_bytesOf : ∀ w n, (bytesOf w n).length = w
  | 0, _ => rfl
  | w + 1, n => congrArg (· + 1) (length_bytesOf w n)

theorem valueOfBytes_bytesOf : ∀ w n, valueOfBytes (bytesOf w n) = n % 256 ^ w
  | 0, n => by simp [bytesOf, valueOfBytes, Nat.mod_one]
  | w + 1, n => by
    rw [bytesOf, valueOfBytes, valueOfBytes_bytesOf w, Nat.mod_pow_succ, length_bytesOf,
      show (n / 256 ^ w).toUInt8.toNat = n / 256 ^ w % 256 from rfl]
    ring

theorem Uuid.ofBytes_bytesOf (u : Uuid) : Uuid.ofBytes (bytesOf 16 u.val) = u :=
  Fin.ext (by simp only [Uuid.ofBytes, valueOfBytes_bytesOf, show (256 : Nat) ^ 16 = 2 ^ 128 from rfl,
    Nat.mod_mod, Nat.mod_eq_of_lt u.isLt])

/-- The canonical text of a UUID parses back to it. -/
theorem uuidParse_toString (u : Uuid) : uuidParse u.toString = (u, true) := by
  have hs : goBytes u.toString = (encodeHex (bytesOf 16 u.val)).map asciiByte :=
    goBytes_ascii (encodeHex_ascii _)
  have hlen : ((encodeHex (bytesOf 16 u.val)).map asciiByte).length = 36 := by
    simp [bytesOf, encodeHex, hexEncode]
  simp only [uuidParse, parseBytes, hs, hlen, if_true, parseDashed_encodeHex, Uuid.ofBytes_bytesOf]

theorem parseUuid_toString (u : Uuid) : parseUuid u.toString = some u := by
  simp only [parseUuid, uuidParse_toString, if_true]

/-! ## Wire timestamps -/

/-- Modelled from the spec: `syncx.RFC3339(ms)`, the RFC 3339 text acks and REST items carry
for a millisecond instant (§6). The text names whole seconds, so we keep the seconds. -/
structure Rfc3339 where
  seconds : Int
  deriving DecidableEq, Repr

/-- Modelled from the spec: `syncx.RFC3339`, the instant `ms` milliseconds after the Unix
epoch, at second precision. -/
def rfc3339 (ms : Int) : Rfc3339 := ⟨ms / 1000⟩

end Toolbridge
