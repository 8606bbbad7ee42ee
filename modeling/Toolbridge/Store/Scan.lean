import Toolbridge.Store.Table

/-!
# The cursor scan

Within one owner a row's cursor `(updated_at_ms, uid)` names it: the primary key is
`(owner_id, uid)`. So the owner's rows above a cursor, in `ORDER BY updated_at_ms, uid`
order, are strictly ascending, and they are determined by which rows qualify: a sorted
list is fixed by its elements. From this, resuming a scan after the last row of a page
gives exactly the rows after the page (`above_after_page`).
-/

namespace Toolbridge

namespace Table

variable {t : Table} {o : String} {cur c : Cursor}

theorem nodup_rows (t : Table) : t.rows.Nodup := List.Nodup.of_map Row.key t.nodup

/-- Within one owner, the cursor names the row. -/
theorem eq_of_cursor_eq {r r' : Row} (hr : r ∈ t.rows) (hr' : r' ∈ t.rows)
    (ho : r.ownerId = r'.ownerId) (hc : r.cursor = r'.cursor) : r = r' :=
  eq_of_mem_of_key_eq hr hr' (by
    simp only [Row.cursor, Cursor.mk.injEq] at hc
    simp only [Row.key, Prod.mk.injEq]; exact ⟨ho, hc.2⟩)

theorem mem_above {r : Row} : r ∈ t.above o cur ↔ r ∈ t.rows ∧ r.ownerId = o ∧ cur < r.cursor := by
  simp [above, List.mem_insertionSort]

theorem above_perm : (t.above o cur).Perm (t.rows.filter fun r => r.ownerId = o ∧ cur < r.cursor) :=
  List.perm_insertionSort _ _

/-- The rows a scan runs over: the owner's rows above the cursor. -/
theorem above_perm_ownedBy : (t.above o cur).Perm ((t.ownedBy o).filter fun r => cur < r.cursor) := by
  rw [ownedBy, List.filter_filter]
  exact above_perm.trans (List.Perm.of_eq (List.filter_congr fun r _ => by
    simp only [Bool.decide_and, Bool.and_comm]))

/-- The owner's rows above a cursor are strictly ascending. -/
theorem above_sorted : (t.above o cur).Sorted fun a b => a.cursor < b.cursor := by
  haveI : IsTotal Row fun a b => a.cursor ≤ b.cursor := ⟨fun _ _ => le_total _ _⟩
  haveI : IsTrans Row fun a b => a.cursor ≤ b.cursor := ⟨fun _ _ _ => le_trans⟩
  have hle : (t.above o cur).Sorted fun a b => a.cursor ≤ b.cursor :=
    List.sorted_insertionSort _ _
  have hne : (t.above o cur).Pairwise fun a b => a.cursor ≠ b.cursor := by
    refine (above_perm.nodup_iff.mpr ((nodup_rows t).filter _)).imp_of_mem fun ha hb hab hc => ?_
    obtain ⟨ha, hao, -⟩ := mem_above.mp ha
    obtain ⟨hb, hbo, -⟩ := mem_above.mp hb
    exact hab (eq_of_cursor_eq ha hb (hao.trans hbo.symm) hc)
  exact (hle.and hne).imp fun h => lt_of_le_of_ne h.1 h.2

/-- Two strictly ascending lists of the same rows are the same list. -/
theorem eq_of_perm_of_cursor_sorted {l₁ l₂ : List Row} (hp : l₁.Perm l₂)
    (h₁ : l₁.Sorted fun a b => a.cursor < b.cursor) (h₂ : l₂.Sorted fun a b => a.cursor < b.cursor) :
    l₁ = l₂ :=
  @List.eq_of_perm_of_sorted _ _ ⟨fun _ _ hab hba => absurd (hab.trans hba) (lt_irrefl _)⟩ _ _ hp h₁ h₂

/-- A scan from a higher cursor keeps the rows above it, in the same order. -/
theorem above_of_le (h : cur ≤ c) : t.above o c = (t.above o cur).filter fun r => c < r.cursor := by
  refine eq_of_perm_of_cursor_sorted ?_ above_sorted (above_sorted.filter _)
  refine above_perm.trans ((List.Perm.filter _ above_perm).trans ?_).symm
  rw [List.filter_filter]
  refine List.Perm.of_eq (List.filter_congr fun r _ => ?_)
  by_cases hc : c < r.cursor
  · simp [hc, h.trans_lt hc]
  · simp [hc]

/-- Resuming after the last row of a page gives the rows after the page. -/
theorem above_after_page {limit : Nat} {x : Row} (hx : ((t.above o cur).take limit).getLast? = some x) :
    t.above o x.cursor = (t.above o cur).drop limit := by
  have hmem : x ∈ (t.above o cur).take limit := List.mem_of_getLast?_eq_some hx
  rw [above_of_le (mem_above.mp (List.mem_of_mem_take hmem)).2.2.le]
  conv_lhs => rw [← List.take_append_drop limit (t.above o cur)]
  rw [List.filter_append, List.filter_eq_nil_iff.mpr, List.nil_append, List.filter_eq_self.mpr]
  · intro r hr
    simpa using above_sorted.rel_of_mem_take_of_mem_drop hmem hr
  · intro r hr
    have hs : ((t.above o cur).take limit).Sorted fun a b => a.cursor < b.cursor :=
      above_sorted.sublist (List.take_sublist _ _)
    obtain ⟨init, hinit⟩ := List.getLast?_eq_some_iff.mp hx
    rw [hinit] at hs hr
    rcases List.mem_append.mp hr with hr | hr
    · simpa using lt_asymm ((List.pairwise_append.mp hs).2.2 r hr x (List.mem_singleton_self _))
    · rw [List.mem_singleton.mp hr]; simp

end Table

end Toolbridge
