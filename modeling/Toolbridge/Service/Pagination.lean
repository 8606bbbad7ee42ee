import Toolbridge.Service.Batch
import Toolbridge.Service.Pull
import Toolbridge.Store.Scan

/-!
# Paging through a quiescent table

A client replicates a kind by pulling from the origin and resuming from each
`nextCursor` until a page comes back without one. On a table nobody writes, the pages
are consecutive slices of the owner's rows above the origin, in cursor order: the next
cursor is the last row's, its text decodes back to it (`decodeCursor_encodeCursor`,
`uuidParse_toString`), and the rows above it are the rest (`Table.above_after_page`).
-/

namespace Toolbridge

/-- The pull loop of a client: pull from `cur`, resume from the cursor `DecodeCursor` returns
for `nextCursor`, stop at a page without one; `fuel` bounds the number of calls. -/
def syncPulls (k : Kind) (db : Db) (userID : String) (limit : Nat) : Nat → Cursor → List PullResponse
  | 0, _ => []
  | fuel + 1, cur =>
    match pullItems k Faults.none db userID cur limit with
    | .error _ => []
    | .ok resp => resp :: match resp.nextCursor with
      | none => []
      | some s => syncPulls k db userID limit fuel ((decodeCursor s).getD Cursor.origin)

@[simp] theorem pullItems_none (k : Kind) (db : Db) (userID : String) (cur : Cursor) (limit : Nat) :
    pullItems k Faults.none db userID cur limit = .ok (pullPage ((db.tables k).scan userID cur limit)) :=
  rfl

/-- The next cursor of a page is its last row's. -/
theorem pullPage_nextCursor (rows : List Row) :
    (pullPage rows).nextCursor = rows.getLast?.map fun r => encodeCursor r.cursor := by
  simp only [pullPage, uuidParse_toString]; rfl

theorem decode_nextCursor {rows : List Row} {s : String} (h : (pullPage rows).nextCursor = some s) :
    ∃ x, rows.getLast? = some x ∧ (decodeCursor s).getD Cursor.origin = x.cursor := by
  rw [pullPage_nextCursor] at h
  obtain ⟨x, hx, rfl⟩ := Option.map_eq_some'.mp h
  exact ⟨x, hx, by rw [decodeCursor_encodeCursor]; rfl⟩

/-- Pages of `L` rows cover `n` rows in `⌈n / L⌉` pages; one more call meets the empty page. -/
theorem pages_step {n L : Nat} (hL : 0 < L) (hn : 0 < n) : (n - L + L - 1) / L + 1 = (n + L - 1) / L := by
  by_cases h : L ≤ n
  · have : n + L - 1 = (n - L + L - 1) + L := by omega
    rw [this, Nat.add_div_right _ hL]
  · have h1 : (n - L + L - 1) / L = 0 := Nat.div_eq_of_lt (by omega)
    have h2 : (n + L - 1) / L = 1 := Nat.div_eq_of_lt_le (by omega) (by omega)
    omega

/-- The loop from any cursor, with enough fuel: one call per page, each page the scan from the
cursor it was pulled from, the pages together the rows above the start, the last page empty. -/
theorem syncPulls_pages {k : Kind} {db : Db} {userID : String} {L : Nat} (hL : 0 < L) :
    ∀ fuel cur, (((db.tables k).above userID cur).length + L - 1) / L < fuel →
      ∃ calls : List (Cursor × List Row),
        syncPulls k db userID L fuel cur = calls.map (fun c => pullPage c.2) ∧
        calls.length = (((db.tables k).above userID cur).length + L - 1) / L + 1 ∧
        (∀ c ∈ calls, c.2 = (db.tables k).scan userID c.1 L ∧ cur ≤ c.1) ∧
        (calls.map Prod.snd).flatten = (db.tables k).above userID cur ∧
        calls.getLast?.map Prod.snd = some [] ∧ ∀ c ∈ calls.dropLast, c.2 ≠ []
  | 0, _, h => absurd h (Nat.not_lt_zero _)
  | fuel + 1, cur, h => by
    set S := (db.tables k).above userID cur with hS
    rcases hpage : (S.take L).getLast? with _ | x
    -- no row above the cursor: one empty page, the last
    · have hnil : S = [] := by
        rw [List.getLast?_eq_none_iff, List.take_eq_nil_iff] at hpage
        rcases hpage with h | h
        · omega
        · exact h
      refine ⟨[(cur, [])], ?_, ?_, ?_, ?_, rfl, by simp⟩
      · simp [syncPulls, Table.scan, ← hS, hnil, pullPage]
      · simp [hnil, Nat.div_eq_of_lt (Nat.sub_one_lt_of_lt hL)]
      · simp [Table.scan, ← hS, hnil]
      · simp [hnil]
    -- a full or partial page ending at `x`, then the loop from `x`'s cursor
    · have hne : S ≠ [] := fun h => by simp [h] at hpage
      have hrest := Table.above_after_page hpage
      rw [← hS] at hrest
      have hlen : (S.length - L + L - 1) / L < fuel := by
        have := pages_step hL (List.length_pos.mpr hne); omega
      obtain ⟨calls, hrun, hcount, hcalls, hjoin, hlast, hfull⟩ :=
        syncPulls_pages hL fuel x.cursor (by rw [hrest, List.length_drop]; exact hlen)
      have hx : cur < x.cursor :=
        (Table.mem_above.mp (List.mem_of_mem_take (List.mem_of_getLast?_eq_some hpage))).2.2
      have hnext : (pullPage (S.take L)).nextCursor = some (encodeCursor x.cursor) := by
        rw [pullPage_nextCursor, hpage]; rfl
      obtain ⟨c₁, cs, rfl⟩ : ∃ c₁ cs, calls = c₁ :: cs :=
        List.exists_cons_of_ne_nil (by rintro rfl; simp at hlast)
      -- the first call, then the calls from `x`'s cursor: each conjunct as a page more
      refine ⟨(cur, S.take L) :: c₁ :: cs, ?_, ?_, ?_, ?_, ?_, ?_⟩
      · simp only [syncPulls, pullItems_none, Table.scan, ← hS, hnext, decodeCursor_encodeCursor,
          Option.getD_some, hrun, List.map_cons]
      · rw [List.length_cons, hcount, hrest, List.length_drop, pages_step hL (List.length_pos.mpr hne)]
      · intro c hc
        rcases List.mem_cons.mp hc with rfl | hc
        · exact ⟨rfl, le_refl _⟩
        · exact ⟨(hcalls c hc).1, hx.le.trans (hcalls c hc).2⟩
      · rw [List.map_cons, List.flatten_cons, hjoin, hrest, List.take_append_drop]
      · simpa using hlast
      · intro c hc
        rw [List.dropLast_cons₂, List.mem_cons] at hc
        rcases hc with rfl | hc
        · exact (fun h => by simp [h] at hpage : S.take L ≠ [])
        · exact hfull c hc

/-- Exact pagination of the rows above the origin: from the origin, with `L ≥ 1` and enough
fuel, the loop makes `⌈n / L⌉ + 1` calls for the `n` rows of the owner above the origin;
every page is the scan from its cursor, holds at most `L` rows and only rows above that
cursor; the pages together hold each of the `n` rows once, in strictly ascending order; and
every page but the last, which is empty, carries a next cursor. -/
theorem syncPulls_exact (k : Kind) (db : Db) (u : String) (L fuel : Nat) (hL : 0 < L)
    (hfuel : ((((db.tables k).ownedBy u).filter (Cursor.origin < ·.cursor)).length + L - 1) / L < fuel) :
    ∃ calls : List (Cursor × List Row),
      syncPulls k db u L fuel Cursor.origin = calls.map (fun c => pullPage c.2) ∧
      calls.length = ((((db.tables k).ownedBy u).filter (Cursor.origin < ·.cursor)).length + L - 1) / L + 1 ∧
      (∀ c ∈ calls, c.2 = (db.tables k).scan u c.1 L ∧ c.2.length ≤ L ∧ ∀ r ∈ c.2, c.1 < r.cursor) ∧
      (calls.map Prod.snd).flatten.Perm (((db.tables k).ownedBy u).filter (Cursor.origin < ·.cursor)) ∧
      (calls.map Prod.snd).flatten.Sorted (fun a b => a.cursor < b.cursor) ∧
      (∀ c ∈ calls.dropLast, (pullPage c.2).nextCursor.isSome) ∧
      calls.getLast?.map (fun c => (pullPage c.2).nextCursor) = some none := by
  have hn := @Table.above_perm_ownedBy (db.tables k) u Cursor.origin
  rw [← hn.length_eq] at hfuel ⊢
  obtain ⟨calls, hrun, hcount, hcalls, hjoin, hlast, hfull⟩ := syncPulls_pages hL fuel _ hfuel
  refine ⟨calls, hrun, hcount, fun c hc => ?_, hjoin ▸ hn, hjoin ▸ Table.above_sorted, fun c hc => ?_, ?_⟩
  · obtain ⟨hscan, -⟩ := hcalls c hc
    refine ⟨hscan, hscan ▸ (List.length_take_le _ _), fun r hr => ?_⟩
    rw [hscan, Table.scan] at hr
    exact (Table.mem_above.mp (List.mem_of_mem_take hr)).2.2
  · simp [pullPage_nextCursor, Option.isSome_map', List.getLast?_isSome, hfull c hc]
  · obtain ⟨c, hc, hc2⟩ := Option.map_eq_some'.mp hlast
    simp [hc, hc2, pullPage_nextCursor]

/-- The law on two pushed categories read one per page. -/
theorem syncPulls_exact_two_rows :
    let db := (pushTaskListCategories Faults.none Db.empty "u"
      [syncItem "00000000-0000-0000-0000-00000000000a" 2 1,
        syncItem "00000000-0000-0000-0000-00000000000b" 1 1]).2
    0 < 1 ∧
    ((((db.tables .taskListCategory).ownedBy "u").filter (Cursor.origin < ·.cursor)).length + 1 - 1) / 1 < 3 ∧
    ∃ calls : List (Cursor × List Row),
      syncPulls .taskListCategory db "u" 1 3 Cursor.origin = calls.map (fun c => pullPage c.2) ∧
      calls.length =
        ((((db.tables .taskListCategory).ownedBy "u").filter (Cursor.origin < ·.cursor)).length + 1 - 1) / 1 + 1 ∧
      (∀ c ∈ calls, c.2 = (db.tables .taskListCategory).scan "u" c.1 1 ∧ c.2.length ≤ 1 ∧
        ∀ r ∈ c.2, c.1 < r.cursor) ∧
      (calls.map Prod.snd).flatten.Perm
        (((db.tables .taskListCategory).ownedBy "u").filter (Cursor.origin < ·.cursor)) ∧
      (calls.map Prod.snd).flatten.Sorted (fun a b => a.cursor < b.cursor) ∧
      (∀ c ∈ calls.dropLast, (pullPage c.2).nextCursor.isSome) ∧
      calls.getLast?.map (fun c => (pullPage c.2).nextCursor) = some none :=
  ⟨by decide, by decide, syncPulls_exact _ _ _ 1 3 (by decide) (by decide)⟩

/-- The rows at or below the origin are never delivered: a category pushed with
`updated_at_ms = -1` is the owner's one row, yet the loop stops after one empty page. -/
theorem syncPulls_skips_rows_below_origin :
    let db := (pushTaskListCategories Faults.none Db.empty "u"
      [syncItem "00000000-0000-0000-0000-00000000000a" (-1) 1]).2
    ((db.tables .taskListCategory).ownedBy "u").length = 1 ∧
    (syncPulls .taskListCategory db "u" 1 5 Cursor.origin).length = 1 ∧
    (syncPulls .taskListCategory db "u" 1 5 Cursor.origin).all
      (fun resp => resp.upserts.isEmpty && resp.deletes.isEmpty) := by
  decide

end Toolbridge
