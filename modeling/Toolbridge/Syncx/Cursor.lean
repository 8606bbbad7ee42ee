import Toolbridge.Syncx.Json
import Mathlib.Data.Prod.Lex
import Mathlib.Data.Int.Order.Basic
import Mathlib.Order.Fin.Basic

/-!
# Cursors and their wire text

A cursor is the pair `(updated_at_ms, uid)` a pull resumes after. Rows are ordered by
the same pair (`ORDER BY updated_at_ms, uid`), and a pull returns the rows strictly
above its cursor (`(updated_at_ms, uid) > ($2, $3::uuid)`).

`syncx.EncodeCursor` and `syncx.DecodeCursor` are not among the sources. The spec asks
only that the text be opaque, that decoding undo encoding, and that malformed text be
rejected (the handlers then fall back to the origin). We model that contract with a
concrete text: the letter `c` and the decimal digits of one number packing both fields.
-/

namespace Toolbridge

/-- `syncx.Cursor`: the resume point of a pull. -/
structure Cursor where
  ms : Int
  uid : Uuid
  deriving DecidableEq, Repr

namespace Cursor

/-- The origin `(0, uuid.Nil)` a pull starts from when it has no cursor. -/
def origin : Cursor := ⟨0, Uuid.nil⟩

/-- The cursor as a lexicographic pair, the order of `ORDER BY updated_at_ms, uid`. -/
def lex (c : Cursor) : Int ×ₗ Uuid := toLex (c.ms, c.uid)

theorem lex_injective : Function.Injective lex := by
  rintro ⟨a, u⟩ ⟨b, v⟩ h
  simpa [lex] using h

instance : LinearOrder Cursor := LinearOrder.lift' lex lex_injective

/-- The row-value comparison `(ms, uid) < (ms', uid')` of PostgreSQL. -/
theorem lt_iff {a b : Cursor} : a < b ↔ a.ms < b.ms ∨ a.ms = b.ms ∧ a.uid < b.uid :=
  Prod.Lex.lt_iff (a.ms, a.uid) (b.ms, b.uid)

end Cursor

/-! ## The wire text -/

/-- Little-endian decimal digits of `n`, computed with `fuel` steps. -/
def decDigits : Nat → Nat → List Nat
  | 0, _ => []
  | fuel + 1, n => if n < 10 then [n] else n % 10 :: decDigits fuel (n / 10)

/-- The number with little-endian decimal digits `ds`. -/
def ofDecDigits : List Nat → Nat
  | [] => 0
  | d :: ds => d + 10 * ofDecDigits ds

theorem ofDecDigits_decDigits : ∀ fuel n, n < fuel → ofDecDigits (decDigits fuel n) = n
  | 0, _, h => absurd h (Nat.not_lt_zero _)
  | fuel + 1, n, h => by
    by_cases hn : n < 10
    · simp [decDigits, ofDecDigits, hn]
    · have := ofDecDigits_decDigits fuel (n / 10) (by omega)
      simp only [decDigits, hn, if_false, ofDecDigits, this]
      omega

theorem decDigits_lt : ∀ fuel n, ∀ d ∈ decDigits fuel n, d < 10
  | 0, _ => by simp [decDigits]
  | fuel + 1, n => by
    by_cases hn : n < 10
    · simp [decDigits, hn]
    · simp only [decDigits, hn, if_false, List.mem_cons]
      rintro d (rfl | hd)
      · exact Nat.mod_lt _ (by decide)
      · exact decDigits_lt fuel _ d hd

/-- The character of a decimal digit. -/
def digitChar (d : Nat) : Char := Char.ofNat (48 + d)

/-- The digit a character stands for, if it is one. -/
def digitVal? (c : Char) : Option Nat :=
  if '0' ≤ c ∧ c ≤ '9' then some (c.toNat - 48) else none

theorem digitVal?_digitChar : ∀ d < 10, digitVal? (digitChar d) = some d := by decide

/-- The cursor as one number: the zig-zag code of `ms` above the 128 bits of `uid`. -/
def Cursor.pack (c : Cursor) : Nat :=
  (if 0 ≤ c.ms then 2 * c.ms.toNat else 2 * (-c.ms).toNat - 1) * 2 ^ 128 + c.uid.val

/-- Inverse of `Cursor.pack`. -/
def Cursor.unpack (n : Nat) : Cursor :=
  let z := n / 2 ^ 128
  ⟨if z % 2 = 0 then ((z / 2 : Nat) : Int) else -(((z + 1) / 2 : Nat) : Int),
    ⟨n % 2 ^ 128, Nat.mod_lt _ (by decide)⟩⟩

theorem Cursor.unpack_pack (c : Cursor) : Cursor.unpack c.pack = c := by
  obtain ⟨ms, uid, hu⟩ := c
  have hdiv : ∀ z : Nat, (z * 2 ^ 128 + uid) / 2 ^ 128 = z := fun z => by
    rw [Nat.add_comm, Nat.add_mul_div_right _ _ (by decide), Nat.div_eq_of_lt hu, Nat.zero_add]
  have hmod : ∀ z : Nat, (z * 2 ^ 128 + uid) % 2 ^ 128 = uid := fun z => by
    rw [Nat.add_comm, Nat.add_mul_mod_self_right, Nat.mod_eq_of_lt hu]
  simp only [Cursor.pack, Cursor.unpack, hdiv, hmod, Cursor.mk.injEq, and_true]
  split <;> split <;> omega

/-- Modelled from the spec: `syncx.EncodeCursor`, an opaque text for a cursor (§6, "Cursor
wire format"). -/
def encodeCursor (c : Cursor) : String :=
  String.mk ('c' :: ((decDigits (c.pack + 1) c.pack).map digitChar).reverse)

/-- Modelled from the spec: `syncx.DecodeCursor`, which rejects malformed text. -/
def decodeCursor (s : String) : Option Cursor :=
  match s.toList with
  | 'c' :: cs => (cs.reverse.mapM digitVal?).map fun ds => Cursor.unpack (ofDecDigits ds)
  | _ => none

/-- Decoding undoes encoding. -/
theorem decodeCursor_encodeCursor (c : Cursor) : decodeCursor (encodeCursor c) = some c := by
  simp only [decodeCursor, encodeCursor, String.toList, List.reverse_reverse,
    mapM_map_of_inverse fun d hd => digitVal?_digitChar d (decDigits_lt _ _ d hd), Option.map_some',
    ofDecDigits_decDigits _ _ (Nat.lt_succ_self _), Cursor.unpack_pack]

end Toolbridge
