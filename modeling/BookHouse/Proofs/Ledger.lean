/-
What every cashbook keeps, whoever writes it.

All cash goes through `post`, so what a call does to the cashbook is a list of postings:
the COD settlement posts entries that reverse nothing, a reversal posts entries that
reverse its legs.  A property of cashbooks that such postings keep is kept by the calls
(`codRemittance_keeps`, `reverse_keeps`); `Kept` is one.
-/
import BookHouse.Proofs.Books
import BookHouse.Proofs.Money

namespace BookHouse

namespace CashLedger

variable {b b' : Cashbook} {e : PostEntry}

/-- A posting that names its account is a row on that account. -/
theorem post_onto {id : AccountId} (hacc : e.account = .accountId id) (h : post b e = .ok b') :
    b'.entries = b.entries ++ [e.row b.entries.length id] ∧ b'.accounts = b.accounts := by
  unfold post at h
  split at h
  · cases h
  cases ha : account b e.account e.reversesId.isSome with
  | error failure => simp [ha] at h
  | ok r =>
      simp only [ha] at h
      obtain rfl := Except.ok.inj h
      simp only [account, hacc] at ha
      cases hl : Rows.lookup CashAccount.id id b.accounts with
      | none => simp [hl] at ha
      | some acc =>
          simp only [hl] at ha
          split at ha
          · cases ha
          · obtain rfl := Except.ok.inj ha
            rw [Rows.key_of_lookup hl]
            exact ⟨rfl, rfl⟩

structure Kept (b : Cashbook) : Prop where
  /-- entries are numbered in the order they were posted -/
  ids : b.entries.map (·.id) = List.range b.entries.length
  sound : Sound b
  positive : ∀ e ∈ b.entries, 0 < e.amount
  places : ∀ e ∈ b.entries, round2 e.amount = e.amount

theorem Kept.of_entries (h : Kept b) (he : b'.entries = b.entries) : Kept b' := by
  obtain ⟨ids, sound, positive, places⟩ := h
  rw [← he] at ids positive places
  refine ⟨ids, fun r hr i hi => ?_, positive, places⟩
  rw [he] at hr ⊢
  exact sound r hr i hi

theorem Kept.nodup (h : Kept b) : (b.entries.map (·.id)).Nodup := by
  rw [h.ids]
  exact List.nodup_range

theorem Kept.id_lt (h : Kept b) {x : CashTransaction} (hx : x ∈ b.entries) :
    x.id < b.entries.length := by
  have hmem : x.id ∈ b.entries.map (·.id) := List.mem_map_of_mem hx
  rw [h.ids] at hmem
  exact List.mem_range.mp hmem

theorem Kept.nil (h : b.entries = []) : Kept b := by
  refine ⟨by rw [h]; rfl, ?_, by simp [h], by simp [h]⟩
  intro r hr
  simp [h] at hr

theorem Kept.post (h : Kept b) (he : ∀ i, e.reversesId = some i → i < b.entries.length)
    (hpost : post b e = .ok b') : Kept b' := by
  obtain ⟨hpos, acc, hent⟩ := post_ok hpost
  refine ⟨?_, h.sound.post he hpost, fun x hx => ?_, fun x hx => ?_⟩
  · rw [hent, List.map_append, h.ids, List.length_append, List.length_singleton, List.range_succ]
    rfl
  · rw [hent, List.mem_append, List.mem_singleton] at hx
    rcases hx with hx | rfl
    · exact h.positive x hx
    · exact hpos
  · rw [hent, List.mem_append, List.mem_singleton] at hx
    rcases hx with hx | rfl
    · exact h.places x hx
    · exact round2_of_paisa (round2_paisa _)

end CashLedger

namespace CashbookService

variable {b b' : Books} {I : Cashbook → Prop}

/-- **The COD settlement is a list of postings that reverse nothing.** -/
theorem codRemittance_keeps {dto : CodRemittanceDto} {group : ℕ} {now : Instant}
    (hsame : ∀ c c', c'.entries = c.entries → I c → I c')
    (hpost : ∀ c c' e, e.reversesId = none →
      e.transferGroupId = none ∨ e.transferGroupId = some group →
      CashLedger.post c e = .ok c' → I c → I c')
    (h : codRemittance b dto group now = .ok b') (hb : I b.cash) :
    I b'.cash ∧ b'.docs = b.docs ∧ b'.counters = b.counters := by
  obtain ⟨⟨c₁, dest⟩, hacc, h⟩ := Result.bind_ok.mp h
  have h₁ : I c₁ := hsame _ _ (CashLedger.account_entries hacc) hb
  simp only at h
  split at h
  · obtain ⟨c₂, hp, h⟩ := Result.bind_ok.mp h
    obtain rfl := Except.ok.inj h
    exact ⟨hpost _ _ _ rfl (.inl rfl) hp h₁, rfl, rfl⟩
  split at h
  · cases h
  split at h
  · cases h
  split at h
  · cases h
  obtain ⟨c₂, hbook, h⟩ := Result.bind_ok.mp h
  obtain ⟨⟨c₃, cash⟩, hcash, h⟩ := Result.bind_ok.mp h
  obtain ⟨c₄, hmove, h⟩ := Result.bind_ok.mp h
  obtain ⟨c₅, hded, h⟩ := Result.bind_ok.mp h
  obtain rfl := Except.ok.inj h
  refine ⟨?_, rfl, rfl⟩
  have h₂ : I c₂ := by
    refine Result.foldlM_rel (R := fun s t => I s → I t) (fun _ hs => hs)
      (fun _ _ _ hst htu hs => htu (hst hs)) (fun s a t hst hs => ?_) _ _ _ hbook h₁
    unfold bookCod at hst
    split at hst
    · obtain rfl := Except.ok.inj hst
      exact hs
    · exact hpost _ _ _ rfl (.inl rfl) hst hs
  have h₃ : I c₃ := hsame _ _ (CashLedger.account_entries hcash) h₂
  have h₄ : I c₄ := by
    unfold moveReceived at hmove
    split at hmove
    · obtain rfl := Except.ok.inj hmove
      exact h₃
    · obtain ⟨c, hout, hin⟩ := Result.bind_ok.mp hmove
      exact hpost _ _ _ rfl (.inr rfl) hin (hpost _ _ _ rfl (.inr rfl) hout h₃)
  unfold bookDeducted at hded
  split at hded
  · exact hpost _ _ _ rfl (.inl rfl) hded h₄
  · obtain rfl := Except.ok.inj hded
    exact h₄

/-- What a reversal found before it posted anything. -/
structure Reversible (c : Cashbook) (id : EntryId) (orig : CashTransaction) : Prop where
  found : Rows.lookup CashTransaction.id id c.entries = some orig
  original : orig.reversesId = none
  unreversed : ∀ r ∈ c.entries, r.reversesId ≠ some orig.id
  legs : ∀ leg ∈ legs c orig, ∀ r ∈ c.entries, r.reversesId ≠ some leg.id

theorem reverse_ok {c c' : Cashbook} {id : EntryId} {reason : String} {group : ℕ} {now : Instant}
    (h : reverse c id reason group now = .ok c') : ∃ orig, Reversible c id orig ∧
      (legs c orig).foldlM (reverseLeg reason (orig.transferGroupId.map fun _ => group) now) c =
        .ok c' := by
  unfold reverse at h
  simp only at h
  cases hl : Rows.lookup CashTransaction.id id c.entries with
  | none => simp [hl] at h
  | some orig =>
      simp only [hl] at h
      split at h
      · cases h
      rename_i hnone
      split at h
      · cases h
      rename_i hself
      split at h
      · cases h
      rename_i hlegs
      refine ⟨orig, ⟨hl, by simpa using hnone, by simpa using hself, ?_⟩, h⟩
      simpa using hlegs

theorem mem_legs {c : Cashbook} {id : EntryId} {orig leg : CashTransaction}
    (h : Reversible c id orig) (hleg : leg ∈ legs c orig) :
    leg ∈ c.entries ∧ leg.reversesId = none := by
  unfold legs at hleg
  split at hleg
  · obtain ⟨hmem, hcond⟩ := List.mem_filter.mp hleg
    simp only [Bool.and_eq_true, Option.isNone_iff_eq_none] at hcond
    exact ⟨hmem, hcond.2⟩
  · rw [List.mem_singleton.mp hleg]
    exact ⟨Rows.mem_of_lookup h.found, h.original⟩

/-- **A reversal is a list of postings that reverse its legs.** -/
theorem reverse_keeps {c c' : Cashbook} {id : EntryId} {reason : String} {group : ℕ}
    {now : Instant} {I : Cashbook → Prop}
    (hpost : ∀ d d' e leg, leg ∈ c.entries → leg.reversesId = none → c.entries.length ≤ d.entries.length →
      e.reversesId = some leg.id → CashLedger.post d e = .ok d' → I d → I d')
    (h : reverse c id reason group now = .ok c') (hc : I c) : I c' := by
  obtain ⟨orig, hrev, hfold⟩ := reverse_ok h
  have hmem : ∀ leg ∈ legs c orig, leg ∈ c.entries ∧ leg.reversesId = none :=
    fun _ hleg => mem_legs hrev hleg
  have hgrow : ∀ (ls : List CashTransaction) (d d' : Cashbook), (∀ leg ∈ ls, leg ∈ legs c orig) →
      c.entries.length ≤ d.entries.length →
      ls.foldlM (reverseLeg reason (orig.transferGroupId.map fun _ => group) now) d = .ok d' →
      I d → I d' := by
    intro ls
    induction ls with
    | nil =>
        intro d d' _ _ hd hi
        obtain rfl := Result.foldlM_nil_ok.mp hd
        exact hi
    | cons leg rest ih =>
        intro d d' hls hlen hd hi
        obtain ⟨d₁, hleg, hrest⟩ := Result.foldlM_cons_ok.mp hd
        obtain ⟨e, he, hp⟩ := reverseLeg_ok hleg
        obtain ⟨-, acc, hent⟩ := CashLedger.post_ok hp
        obtain ⟨hin, hnone⟩ := hmem leg (hls leg (List.mem_cons_self ..))
        refine ih d₁ d' (fun x hx => hls x (List.mem_cons_of_mem _ hx)) ?_ hrest
          (hpost d d₁ e leg hin hnone hlen he hp hi)
        rw [hent, List.length_append]
        exact hlen.trans (Nat.le_add_right _ _)
  exact hgrow _ c c' (fun _ h => h) (le_refl _) hfold hc

end CashbookService

open CashLedger

/-- **Every call on the books keeps the cashbook in order.** -/
theorem booksStep_kept {b b' : Books} {a : BooksAction} (h : Kept b.cash)
    (hstep : booksStep b a = some b') : Kept b'.cash := by
  cases a with
  | change sources accounts counters shipments =>
      obtain rfl := Option.some.inj hstep
      exact h.of_entries rfl
  | sync orderId hint now =>
      obtain ⟨⟨b₁, r⟩, hs, rfl⟩ := Result.map_ok.mp (Result.toOption_some.mp hstep)
      rcases syncIn_ok hs with ⟨-, rfl⟩ | ⟨order, ds, -, hsync⟩
      · exact h
      cases hcod : (planOf b order hint).codCashIn with
      | false => exact hsync.noCash hcod ▸ h
      | true => exact h.post (fun _ hc => by cases hc) (hsync.cashIn hcod)
  | codRemittance dto group now =>
      exact (CashbookService.codRemittance_keeps (fun _ _ he hc => hc.of_entries he)
        (fun _ _ _ he _ hp hc => hc.post (by simp [he]) hp) (Result.toOption_some.mp hstep) h).1
  | reverse id reason group now =>
      obtain ⟨c, hrev, rfl⟩ := Result.map_ok.mp (Result.toOption_some.mp hstep)
      refine CashbookService.reverse_keeps (fun d d' e leg hleg _ hlen he hp hd => ?_) hrev h
      refine hd.post (fun i hi => ?_) hp
      obtain rfl : leg.id = i := Option.some.inj (he.symm.trans hi)
      exact (h.id_lt hleg).trans_le hlen
  | post e =>
      simp only [booksStep] at hstep
      split at hstep
      · rename_i hflow
        obtain ⟨c, hp, rfl⟩ := Result.map_ok.mp (Result.toOption_some.mp hstep)
        simp only [BooksAction.otherFlow, Bool.and_eq_true, Option.isNone_iff_eq_none] at hflow
        exact h.post (by simp [hflow.2]) hp
      · cases hstep

end BookHouse
