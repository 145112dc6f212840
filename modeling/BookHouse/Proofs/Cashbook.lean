/-
What the append-only ledger guarantees.

`post_ok` says once what a posting did: one more entry, at the next id.  The live
entries of a search can therefore only lose members to a reversal and gain the entry
that was just posted; `live_post` is the exact form of this for an entry that reverses
nothing.
-/
import BookHouse.Finance.CodRemittance
import BookHouse.Lib.Result

namespace BookHouse

namespace CashLedger

variable {b b' : Cashbook} {e : PostEntry} {m : Match}

theorem account_entries {ref : AccountRef} {allow : Bool} {acc : CashAccount}
    (h : account b ref allow = .ok (b', acc)) : b'.entries = b.entries := by
  unfold account at h
  cases ref with
  | accountId id =>
      simp only at h
      cases hl : Rows.lookup CashAccount.id id b.accounts with
      | none => simp [hl] at h
      | some a =>
          simp only [hl] at h
          split at h
          · cases h
          · rw [(Prod.mk.inj (Except.ok.inj h)).1]
  | accountCode code =>
      simp only at h
      cases hl : Rows.lookup CashAccount.code code.code b.accounts with
      | none =>
          simp only [hl] at h
          split at h
          · cases h
          · rw [← (Prod.mk.inj (Except.ok.inj h)).1]
      | some a =>
          simp only [hl] at h
          split at h
          · cases h
          · rw [(Prod.mk.inj (Except.ok.inj h)).1]

/-- Everything a posting did: one more entry, with the next id and a positive amount. -/
theorem post_ok (h : post b e = .ok b') :
    0 < round2 e.amount ∧ ∃ acc, b'.entries = b.entries ++ [e.row b.entries.length acc] := by
  unfold post at h
  split at h
  · cases h
  rename_i hpos
  refine ⟨not_le.mp hpos, ?_⟩
  cases ha : account b e.account e.reversesId.isSome with
  | error failure => simp [ha] at h
  | ok r =>
      obtain ⟨b₁, acc⟩ := r
      simp only [ha] at h
      have hent : b₁.entries = b.entries := account_entries ha
      obtain rfl := Except.ok.inj h
      exact ⟨acc.id, by rw [hent]⟩

/-! ### Live entries -/

theorem isLive_append {entries : List CashTransaction} {r x : CashTransaction} :
    isLive (entries ++ [r]) x = (isLive entries x && !decide (r.reversesId = some x.id)) := by
  simp [isLive, Bool.and_assoc]

/-- An entry that reverses nothing leaves the others as live as they were. -/
theorem isLive_append_of_none {entries : List CashTransaction} {r : CashTransaction}
    (hr : r.reversesId = none) (x : CashTransaction) :
    isLive (entries ++ [r]) x = isLive entries x := by
  rw [isLive_append, hr]
  simp

theorem holds_iff {x : CashTransaction} : m.holds x = true ↔
    (m.orderId = none ∨ x.orderId = m.orderId) ∧ x.kind = m.kind ∧
      (∀ d, m.direction = some d → x.direction = d) ∧ ∀ t, m.memo = some t → x.memo = t := by
  cases hd : m.direction <;> cases ht : m.memo <;> simp [Match.holds, and_assoc, hd, ht]

theorem mem_live {x : CashTransaction} :
    x ∈ live b m ↔ x ∈ b.entries ∧ m.holds x ∧ isLive b.entries x := by
  simp [live]

theorem has_eq_false : has b m = false ↔ live b m = [] := by
  simp [has]

/-- A posting adds at most its own entry to what a search finds. -/
theorem live_post_le (h : post b e = .ok b') :
    (live b' m).length ≤ (live b m).length + 1 := by
  obtain ⟨-, acc, hent⟩ := post_ok h
  rw [live, hent, List.filter_append, List.length_append]
  refine Nat.add_le_add ?_ (List.length_filter_le _ _)
  refine (List.monotone_filter_right b.entries fun x hx => ?_).length_le
  rw [isLive_append] at hx
  simp only [Bool.and_eq_true] at hx ⊢
  exact ⟨hx.1, hx.2.1⟩

/-- A posting that the search does not match, or that reverses another one, adds nothing. -/
theorem live_post_not_more (hskip : e.reversesId.isSome ∨ ∀ id acc, m.holds (e.row id acc) = false)
    (h : post b e = .ok b') : (live b' m).length ≤ (live b m).length := by
  obtain ⟨-, acc, hent⟩ := post_ok h
  have hnew : (m.holds (e.row b.entries.length acc) &&
      isLive b'.entries (e.row b.entries.length acc)) = false := by
    rcases hskip with hrev | hm
    · have hdead : isLive b'.entries (e.row b.entries.length acc) = false := by
        simp [isLive, PostEntry.row, Option.isNone_eq_false_iff.mpr hrev]
      rw [hdead, Bool.and_false]
    · rw [hm, Bool.false_and]
  rw [live, hent, List.filter_append, ← hent, List.filter_singleton, hnew, cond_false,
    List.append_nil]
  refine (List.monotone_filter_right b.entries fun x hx => ?_).length_le
  rw [hent, isLive_append] at hx
  simp only [Bool.and_eq_true] at hx ⊢
  exact ⟨hx.1, hx.2.1⟩

/-- Reversals only ever name entries that are there. -/
def Sound (b : Cashbook) : Prop :=
  ∀ r ∈ b.entries, ∀ i, r.reversesId = some i → i < b.entries.length

theorem Sound.post (hb : Sound b) (he : ∀ i, e.reversesId = some i → i < b.entries.length)
    (h : post b e = .ok b') : Sound b' := by
  obtain ⟨-, acc, hent⟩ := post_ok h
  intro r hr i hi
  rw [hent, List.length_append, List.length_singleton]
  rw [hent, List.mem_append, List.mem_singleton] at hr
  rcases hr with hr | rfl
  · exact Nat.lt_succ_of_lt (hb r hr i hi)
  · exact Nat.lt_succ_of_lt (he i hi)

/-- **An entry that reverses nothing is found from then on, with what was found before.** -/
theorem live_post (hb : Sound b) (he : e.reversesId = none) (h : CashLedger.post b e = .ok b') :
    ∃ acc, live b' m = live b m ++
      if m.holds (e.row b.entries.length acc) then [e.row b.entries.length acc] else [] := by
  obtain ⟨-, acc, hent⟩ := post_ok h
  refine ⟨acc, ?_⟩
  have hkeep : ∀ x, isLive (b.entries ++ [e.row b.entries.length acc]) x = isLive b.entries x :=
    isLive_append_of_none he
  have hself : isLive b.entries (e.row b.entries.length acc) := by
    rw [isLive]
    simp only [Bool.and_eq_true, Bool.not_eq_true', List.any_eq_false, decide_eq_true_eq]
    refine ⟨by rw [PostEntry.row, he]; rfl, fun r hr hid => ?_⟩
    exact absurd (hb r hr _ hid) (lt_irrefl _)
  rw [live, hent, List.filter_append, live]
  congr 1
  · refine List.filter_congr fun x _ => ?_
    rw [hkeep]
  · rw [List.filter_singleton, hkeep, hself, Bool.and_true]
    cases m.holds (e.row b.entries.length acc) <;> rfl

/-- A posting that a search does not match leaves what it finds. -/
theorem live_post_other (hb : Sound b) (he : e.reversesId = none)
    (hm : ∀ id acc, m.holds (e.row id acc) = false) (h : CashLedger.post b e = .ok b') :
    live b' m = live b m := by
  obtain ⟨acc, hlive⟩ := live_post (m := m) hb he h
  rw [hlive, hm, if_neg (by simp), List.append_nil]

/-! ### Sums over the live entries -/

/-- What the live entries of a kind come to. -/
def liveSum (c : CashTransaction → Bool) (entries : List CashTransaction) : Money :=
  ((entries.filter fun e => c e && isLive entries e).map (·.amount)).sum

variable {c : CashTransaction → Bool} {entries : List CashTransaction} {r x : CashTransaction}

/-- A new entry that reverses nothing counts from the start. -/
theorem liveSum_append (hr : r.reversesId = none)
    (hfresh : ∀ y ∈ entries, y.reversesId ≠ some r.id) :
    liveSum c (entries ++ [r]) = liveSum c entries + if c r then r.amount else 0 := by
  have hself : isLive entries r := by
    rw [isLive, hr]
    simpa using hfresh
  have hkeep : ∀ y, (c y && isLive (entries ++ [r]) y) = (c y && isLive entries y) := by
    intro y
    rw [isLive_append_of_none hr]
  rw [liveSum, List.filter_append, List.map_append, List.sum_append, liveSum]
  congr 1
  · simp only [hkeep]
  · rw [List.filter_singleton, hkeep, hself, Bool.and_true]
    by_cases h : c r
    · simp [h]
    · simp [h]

/-- A reversal takes what it reverses out of the sum, and nothing else. -/
theorem liveSum_reverse (hnd : (entries.map CashTransaction.id).Nodup) (hx : x ∈ entries)
    (hlive : isLive entries x) (hr : r.reversesId = some x.id) :
    liveSum c (entries ++ [r]) = liveSum c entries - if c x then x.amount else 0 := by
  have hdead : isLive (entries ++ [r]) r = false := by
    simp [isLive, hr]
  have hkeep : ∀ y, (c y && isLive (entries ++ [r]) y) =
      ((c y && isLive entries y) && !decide (y.id = x.id)) := by
    intro y
    rw [isLive_append, hr, Bool.and_assoc]
    simp [eq_comm]
  rw [liveSum, List.filter_append, List.filter_singleton, hdead, Bool.and_false, cond_false,
    List.append_nil]
  simp only [hkeep]
  rw [Rows.sum_filter_without (c := fun y => c y && isLive entries y) hnd hx, hlive,
    Bool.and_true]
  rfl

theorem liveSum_nonneg (hpos : ∀ y ∈ entries, 0 < y.amount) : 0 ≤ liveSum c entries := by
  refine List.sum_nonneg ?_
  intro a ha
  obtain ⟨y, hy, rfl⟩ := List.mem_map.mp ha
  exact (hpos y (List.mem_of_mem_filter hy)).le

/-- A live entry is part of the sum. -/
theorem le_liveSum (hpos : ∀ y ∈ entries, 0 < y.amount) (hx : x ∈ entries)
    (hlive : isLive entries x) (hc : c x) : x.amount ≤ liveSum c entries := by
  refine List.single_le_sum ?_ _ (List.mem_map_of_mem (List.mem_filter.mpr ⟨hx, by simp [hc, hlive]⟩))
  intro a ha
  obtain ⟨y, hy, rfl⟩ := List.mem_map.mp ha
  exact (hpos y (List.mem_of_mem_filter hy)).le

end CashLedger

/-! ### Corrections -/

namespace CashbookService

variable {b b' : Cashbook} {m : CashLedger.Match}

/-- One leg of a reversal is a posting that reverses it. -/
theorem reverseLeg_ok {reason : String} {group : Option ℕ} {now : Instant}
    {leg : CashTransaction} (h : reverseLeg reason group now b leg = .ok b') :
    ∃ e : PostEntry, e.reversesId = some leg.id ∧ CashLedger.post b e = .ok b' := by
  unfold reverseLeg at h
  split at h
  · cases h
  exact ⟨_, rfl, h⟩

/-- A reversal never adds to what a search finds. -/
theorem reverse_live_le {id : EntryId} {reason : String} {group : ℕ} {now : Instant}
    (h : reverse b id reason group now = .ok b') :
    (CashLedger.live b' m).length ≤ (CashLedger.live b m).length := by
  unfold reverse at h
  simp only at h
  cases hl : Rows.lookup CashTransaction.id id b.entries with
  | none => simp [hl] at h
  | some orig =>
      simp only [hl] at h
      split at h
      · cases h
      split at h
      · cases h
      split at h
      · cases h
      refine Result.foldlM_rel
        (R := fun s t => (CashLedger.live t m).length ≤ (CashLedger.live s m).length)
        (fun _ => le_refl _) (fun _ _ _ hst htu => htu.trans hst) ?_ _ b b' h
      intro s leg t hleg
      obtain ⟨e, he, hpost⟩ := reverseLeg_ok hleg
      refine CashLedger.live_post_not_more (.inl ?_) hpost
      rw [he]
      rfl

end CashbookService

end BookHouse
