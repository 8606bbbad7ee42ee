import Toolbridge.Store.Table
import Mathlib.Data.List.MinMax

/-!
# LWW convergence

Every push path writes through the same upsert, `Table.upsert`, and a committed batch is
a run of upserts (`pushItem_accepted`). This module shows what a run of upserts leaves
under one key: the content of the write with the greatest `updated_at_ms`, the stored row
winning a tie. Writes with equal timestamps and different contents are the one case where
the order matters, so the result holds of writes whose equal timestamps carry equal content.
`Toolbridge.Service.Batch` shows that a committed push batch is such a run on its kind's
table (`pushHandler_upsertAll`).
-/

namespace Toolbridge

/-- Successive upserts into a table; the first error (an `INT` overflow) stops the run. -/
def Table.upsertAll (t : Table) : List Row → Except String Table
  | [] => .ok t
  | new :: rest => (t.upsert new).bind fun t' => t'.upsertAll rest

theorem Table.upsertAll_cons {t t' : Table} {new : Row} {rest : List Row} :
    t.upsertAll (new :: rest) = .ok t' ↔
      ∃ r, lwwRow (t.find new.ownerId new.uid) new = .ok r ∧ (t.put r).upsertAll rest = .ok t' := by
  simp only [Table.upsertAll, Table.upsert]
  cases lwwRow (t.find new.ownerId new.uid) new <;> simp [Except.map, Except.bind, bind]

/-- The upsert touches only the key it was offered under. -/
theorem Table.find_put_lwwRow {t : Table} {new r : Row} (h : lwwRow (t.find new.ownerId new.uid) new = .ok r)
    (o : String) (u : Uuid) :
    (t.put r).find o u = if new.key = (o, u) then some r else t.find o u := by
  rw [Table.find_put, lwwRow_find_key h]; rfl

/-! ## The write that wins -/

/-- `w` is the write LWW keeps for a row that held `init` and then received `news`: no
write is newer, and the stored row wins a tie. -/
def IsLwwWinner (init : Option Row) (news : List Row) (w : Row) : Prop :=
  (w ∈ init ∨ w ∈ news) ∧ (∀ x ∈ news, x.updatedAtMs ≤ w.updatedAtMs) ∧
    ∀ i ∈ init, i.updatedAtMs < w.updatedAtMs ∨ i = w

/-- Some write wins whenever the row was there or was written. -/
theorem exists_lwwWinner (init : Option Row) (news : List Row) (h : init.isSome ∨ news ≠ []) :
    ∃ w, IsLwwWinner init news w := by
  by_cases hi : ∃ i ∈ init, ∀ x ∈ news, x.updatedAtMs ≤ i.updatedAtMs
  · obtain ⟨i, hi, hx⟩ := hi
    exact ⟨i, .inl hi, hx, fun i' hi' => .inr (Option.mem_unique hi' hi)⟩
  push_neg at hi
  have hne : news ≠ [] := by
    rcases h with h | h
    · obtain ⟨i, hi'⟩ := Option.isSome_iff_exists.mp h
      obtain ⟨x, hx, -⟩ := hi i hi'
      exact List.ne_nil_of_mem hx
    · exact h
  obtain ⟨w, hw⟩ := Option.ne_none_iff_exists'.mp
    (mt List.argmax_eq_none.mp hne : List.argmax Row.updatedAtMs news ≠ none)
  have hmax : ∀ x ∈ news, x.updatedAtMs ≤ w.updatedAtMs := fun x hx => List.le_of_mem_argmax hx hw
  refine ⟨w, .inr (List.argmax_mem hw), hmax, fun i hi' => .inl ?_⟩
  obtain ⟨x, hx, hlt⟩ := hi i hi'
  exact hlt.trans_le (hmax x hx)

theorem isLwwWinner_perm {init : Option Row} {news news' : List Row} (hp : news.Perm news')
    {w : Row} : IsLwwWinner init news w ↔ IsLwwWinner init news' w := by
  simp only [IsLwwWinner, hp.mem_iff]

/-! ## The row a run leaves -/

/-- What the row under a key looks like after `init` received `ns`: nothing if nothing was
there and nothing came; otherwise a row no older than any of them that is either the
stored row, or carries the content and timestamp of a write newer than the stored row. -/
def LwwResult (init : Option Row) (ns : List Row) : Option Row → Prop
  | none => init = none ∧ ns = []
  | some f => (∀ i ∈ init, i.updatedAtMs ≤ f.updatedAtMs) ∧
      (∀ x ∈ ns, x.updatedAtMs ≤ f.updatedAtMs) ∧
      (f ∈ init ∨ ∃ x ∈ ns, f.content = x.content ∧ f.updatedAtMs = x.updatedAtMs ∧
        ∀ i ∈ init, i.updatedAtMs < x.updatedAtMs)

theorem lwwResult_nil (init : Option Row) : LwwResult init [] init := by
  cases init with
  | none => exact ⟨rfl, rfl⟩
  | some i => exact ⟨fun j hj => (Option.mem_unique hj rfl) ▸ le_refl _, by simp, .inl rfl⟩

/-- One more write keeps the description true. -/
theorem lwwResult_snoc {init cur : Option Row} {ns : List Row} {n r : Row}
    (hres : LwwResult init ns cur) (h : lwwRow cur n = .ok r) : LwwResult init (ns ++ [n]) (some r) := by
  cases cur with
  -- an insert: the write is the row
  | none =>
    obtain ⟨rfl, rfl⟩ := hres
    simp only [lwwRow, Except.ok.injEq] at h
    subst h
    exact ⟨by simp, by simp, .inr ⟨n, by simp, rfl, rfl, by simp⟩⟩
  | some f =>
    obtain ⟨hi, hx, hw⟩ := hres
    simp only [lwwRow] at h
    split_ifs at h with hlt hv
    -- a newer write takes the row over
    · cases h
      refine ⟨fun i hi' => (hi i hi').trans hlt.le, ?_, .inr ⟨n, by simp, rfl, rfl, ?_⟩⟩
      · simp only [List.mem_append, List.mem_singleton]
        rintro x (hx' | rfl)
        · exact (hx x hx').trans hlt.le
        · exact le_refl _
      · exact fun i hi' => (hi i hi').trans_lt hlt
    -- an older or equal one leaves it
    · cases h
      refine ⟨hi, ?_, ?_⟩
      · simp only [List.mem_append, List.mem_singleton]
        rintro x (hx' | rfl)
        · exact hx x hx'
        · exact not_lt.mp hlt
      · rcases hw with hw | ⟨x, hx', hc⟩
        · exact .inl hw
        · exact .inr ⟨x, List.mem_append_left _ hx', hc⟩

/-- A run of upserts, seen from one key. -/
theorem upsertAll_lwwResult {o : String} {u : Uuid} {init : Option Row} :
    ∀ {t t' : Table} {news pre : List Row}, LwwResult init pre (t.find o u) →
      t.upsertAll news = .ok t' →
      LwwResult init (pre ++ news.filter (·.key = (o, u))) (t'.find o u)
  | t, t', [], pre, hres, h => by
    cases h; simpa using hres
  | t, t', n :: rest, pre, hres, h => by
    obtain ⟨r, hr, hrest⟩ := Table.upsertAll_cons.mp h
    have hstep : LwwResult init (pre ++ [n].filter (·.key = (o, u))) ((t.put r).find o u) := by
      rw [Table.find_put_lwwRow hr]
      by_cases hk : n.key = (o, u)
      · simp only [hk, if_true, List.filter_cons, decide_True, List.filter_nil]
        simp only [Row.key, Prod.mk.injEq] at hk
        obtain ⟨rfl, rfl⟩ := hk
        exact lwwResult_snoc hres hr
      · simpa [hk] using hres
    have := upsertAll_lwwResult hstep hrest
    rwa [List.append_assoc, ← List.filter_append, List.singleton_append] at this

/-! ## Convergence -/

/-- The content a run leaves is the winner's, under the tie condition. -/
theorem lwwResult_content {init : Option Row} {ns : List Row} {f w : Row}
    (hres : LwwResult init ns (some f)) (hw : IsLwwWinner init ns w)
    (hties : ∀ a ∈ ns, ∀ b ∈ ns, a.updatedAtMs = b.updatedAtMs → a.content = b.content) :
    f.content = w.content := by
  obtain ⟨hi, hx, hf⟩ := hres
  obtain ⟨hwm, hwx, hwi⟩ := hw
  rcases hf with hf | ⟨x, hxm, hc, hms, hxi⟩
  · rcases hwm with hwm | hwm
    · rw [Option.mem_unique hf hwm]
    · rcases hwi f hf with hlt | rfl
      · exact absurd (hx w hwm) (not_le.mpr hlt)
      · rfl
  · rcases hwm with hwm | hwm
    · exact absurd ((hwx x hxm).trans (le_of_eq rfl)) (not_le.mpr (by
        have := hi w hwm; have := hxi w hwm; omega))
    · rw [hc]
      exact hties x hxm w hwm (le_antisymm (hwx x hxm) (hms ▸ hx w hwm))

/-- Over any reordering of the writes, the row under `(o, u)` carries the content of the LWW
winner, when writes to the key with equal timestamps carry equal content. -/
theorem upsertAll_find_winner {t t'' : Table} {news ns : List Row} {o : String} {u : Uuid}
    (hties : ∀ a ∈ news.filter (·.key = (o, u)), ∀ b ∈ news.filter (·.key = (o, u)),
      a.updatedAtMs = b.updatedAtMs → a.content = b.content)
    (hp : ns.Perm news) (hns : t.upsertAll ns = .ok t'') {w : Row}
    (hw : IsLwwWinner (t.find o u) (news.filter (·.key = (o, u))) w) :
    ∃ r, t''.find o u = some r ∧ r.content = w.content := by
  have hres := upsertAll_lwwResult (lwwResult_nil (t.find o u)) hns
  rw [List.nil_append] at hres
  have hp' := hp.filter (fun r => decide (r.key = (o, u)))
  rw [isLwwWinner_perm hp'.symm] at hw
  cases hfin : t''.find o u with
  -- no row left: then there was no row and no write, and no winner
  | none =>
    rw [hfin] at hres
    obtain ⟨hi, hn⟩ := hres
    rcases hw.1 with hwm | hwm
    · rw [hi] at hwm; cases hwm
    · rw [hn] at hwm; cases hwm
  -- a row left: it carries the winner's content
  | some f =>
    rw [hfin] at hres
    exact ⟨f, rfl, lwwResult_content hres hw fun a ha b hb =>
      hties a (hp'.mem_iff.mp ha) b (hp'.mem_iff.mp hb)⟩

/-- With no row under `(o, u)` and no write to it, no reordering of the writes puts one
there. -/
theorem upsertAll_find_none {t t'' : Table} {news ns : List Row} {o : String} {u : Uuid}
    (hi : t.find o u = none) (hn : news.filter (·.key = (o, u)) = []) (hp : ns.Perm news)
    (hns : t.upsertAll ns = .ok t'') : t''.find o u = none := by
  have hres := upsertAll_lwwResult (lwwResult_nil (t.find o u)) hns
  have hn' : ns.filter (·.key = (o, u)) = [] := by
    rw [← List.perm_nil, ← hn]; exact hp.filter _
  rw [List.nil_append, hn'] at hres
  cases hfin : t''.find o u with
  | none => rfl
  | some f =>
    rw [hfin] at hres
    rcases hres.2.2 with hf | ⟨x, hx, -⟩
    · rw [hi] at hf; cases hf
    · cases hx

/-- LWW convergence: after any run of upserts into a table (the statement every push path
issues), the row under `(o, u)` carries the content of the write with the greatest
`updated_at_ms` among the stored row and the writes to that key, the stored row winning a
tie, provided writes with equal timestamps carry equal content; and every reordering of the
run leaves the same content. -/
theorem upsertAll_converges {t t' : Table} {news : List Row} {o : String} {u : Uuid}
    (h : t.upsertAll news = .ok t')
    (hties : ∀ a ∈ news, ∀ b ∈ news, a.key = (o, u) → b.key = (o, u) →
      a.updatedAtMs = b.updatedAtMs → a.content = b.content) :
    (∀ w, IsLwwWinner (t.find o u) (news.filter (·.key = (o, u))) w →
      ∃ r, t'.find o u = some r ∧ r.content = w.content) ∧
    ∀ news', news'.Perm news → ∀ t'', t.upsertAll news' = .ok t'' →
      (t''.find o u).map Row.content = (t'.find o u).map Row.content := by
  have hties' : ∀ a ∈ news.filter (·.key = (o, u)), ∀ b ∈ news.filter (·.key = (o, u)),
      a.updatedAtMs = b.updatedAtMs → a.content = b.content := by
    intro a ha b hb
    simp only [List.mem_filter, decide_eq_true_eq] at ha hb
    exact hties a ha.1 b hb.1 ha.2 hb.2
  refine ⟨fun w hw => upsertAll_find_winner hties' (List.Perm.refl _) h hw, fun news' hp t'' h'' => ?_⟩
  by_cases hne : (t.find o u).isSome ∨ news.filter (·.key = (o, u)) ≠ []
  -- a row or a write: both runs leave the one winner's content
  · obtain ⟨w, hw⟩ := exists_lwwWinner _ _ hne
    obtain ⟨r, hr, hrc⟩ := upsertAll_find_winner hties' (List.Perm.refl _) h hw
    obtain ⟨r'', hr'', hrc''⟩ := upsertAll_find_winner hties' hp h'' hw
    rw [hr, hr'', Option.map_some', Option.map_some', hrc, hrc'']
  -- neither: both runs leave no row
  · push_neg at hne
    have hi : t.find o u = none := by simpa using hne.1
    rw [upsertAll_find_none hi hne.2 hp h'', upsertAll_find_none hi hne.2 (List.Perm.refl _) h]

/-- The law on a newer write followed by an older one to the same row. -/
theorem upsertAll_converges_newer_first :
    let r₁ : Row := ⟨1, "u", 5, none, 1, .str "new", .none⟩
    let r₂ : Row := ⟨1, "u", 3, none, 1, .str "old", .none⟩
    Table.empty.upsertAll [r₁, r₂] = .ok (Table.empty.put r₁) ∧
    ((∀ w, IsLwwWinner (Table.empty.find "u" 1) ([r₁, r₂].filter (·.key = ("u", 1))) w →
      ∃ r, (Table.empty.put r₁).find "u" 1 = some r ∧ r.content = w.content) ∧
    ∀ news', news'.Perm [r₁, r₂] → ∀ t'', Table.empty.upsertAll news' = .ok t'' →
      (t''.find "u" 1).map Row.content = ((Table.empty.put r₁).find "u" 1).map Row.content) :=
  ⟨rfl, upsertAll_converges rfl (by
    intro a ha b hb _ _ hab
    simp only [List.mem_cons, List.mem_singleton, List.not_mem_nil, or_false] at ha hb
    rcases ha with rfl | rfl <;> rcases hb with rfl | rfl <;> first | rfl | (simp at hab))⟩

end Toolbridge
