/-
Reversals restore balances, each entry once, however they interleave.

Originals are posted whole: the legs of a transfer come together and under a group of their
own, so the legs that a reversal reads are the legs for good (`legs_grow`).  What it has
inserted for them nobody has reversed or can reverse meanwhile, because the unique index
refuses committed rows and waits for the others'.  A commit then turns all of them around
at once, and an entry and its opposite cancel in every balance.
-/
import BookHouse.Finance.ReversalDesk
import BookHouse.Proofs.Ledger

namespace BookHouse

open CashLedger CashDesk

/-! ### Sums over entries -/

section sums

variable {acc : AccountId} {entries legs rows : List CashTransaction}

@[simp] theorem movedOn_nil : movedOn acc [] = 0 := rfl

theorem movedOn_append : movedOn acc (entries ++ rows) = movedOn acc entries + movedOn acc rows := by
  simp [movedOn]

theorem movedOn_cons (e : CashTransaction) : movedOn acc (e :: entries) =
    (if e.accountId = acc then e.signed else 0) + movedOn acc entries := by
  by_cases h : e.accountId = acc
  · simp [movedOn, h]
  · simp [movedOn, h]

theorem movedOn_perm (h : entries.Perm legs) : movedOn acc entries = movedOn acc legs :=
  ((h.filter _).map _).sum_eq

/-- Some of the entries, and the rest. -/
theorem movedOn_without (hnd : entries.Nodup) (hlegs : legs.Nodup) (hsub : ∀ l ∈ legs, l ∈ entries) :
    movedOn acc (entries.filter (· ∉ legs)) = movedOn acc entries - movedOn acc legs := by
  have hsplit : (entries.filter (· ∈ legs) ++ entries.filter (· ∉ legs)).Perm entries := by
    simpa using List.filter_append_perm (fun e => decide (e ∈ legs)) entries
  have hmine : (entries.filter (· ∈ legs)).Perm legs := by
    refine (List.perm_ext_iff_of_nodup (hnd.filter _) hlegs).mpr fun l => ?_
    rw [List.mem_filter, decide_eq_true_eq]
    exact ⟨fun h => h.2, fun h => ⟨hsub l h, h⟩⟩
  rw [← movedOn_perm hsplit, movedOn_append, movedOn_perm hmine]
  ring

/-- The opposite of an entry: what it moved is moved back. -/
structure Undoes (row leg : CashTransaction) : Prop where
  reverses : row.reversesId = some leg.id
  account : row.accountId = leg.accountId
  amount : row.amount = leg.amount
  signed : row.signed = -leg.signed

theorem signed_opposite {row leg : CashTransaction}
    (hdir : row.direction = CashbookService.opposite leg.direction)
    (hamount : row.amount = leg.amount) : row.signed = -leg.signed := by
  unfold CashTransaction.signed
  rw [hdir, hamount]
  cases leg.direction with
  | in_ => rfl
  | out => exact (neg_neg _).symm

theorem Undoes.numbered {row leg : CashTransaction} (h : Undoes row leg) (id : EntryId) :
    Undoes { row with id } leg := ⟨h.reverses, h.account, h.amount, h.signed⟩

theorem movedOn_undoes (h : List.Forall₂ Undoes rows legs) :
    movedOn acc rows = -movedOn acc legs := by
  induction h with
  | nil => simp
  | cons hu _ ih =>
      rw [movedOn_cons, movedOn_cons, ih, hu.account, hu.signed]
      split
      · ring
      · ring

/-- The opposites name the entries they are for, in order. -/
theorem reverses_of_undoes (h : List.Forall₂ Undoes rows legs) :
    rows.filterMap (·.reversesId) = legs.map (·.id) := by
  induction h with
  | nil => rfl
  | cons hu _ ih => rw [List.filterMap_cons, hu.reverses, List.map_cons, ih]

end sums

/-! ### What is reversed -/

section reversed

variable {entries added : List CashTransaction} {e r : CashTransaction}

theorem reversed_append : reversed (entries ++ added) e = (reversed entries e || reversed added e) := by
  simp [reversed]

theorem reversed_eq_true : reversed entries e = true ↔ ∃ r ∈ entries, r.reversesId = some e.id := by
  simp [reversed]

theorem reversed_eq_false : reversed entries e = false ↔ ∀ r ∈ entries, r.reversesId ≠ some e.id := by
  simp [reversed]

theorem not_reversed_of_none (h : ∀ r ∈ added, r.reversesId = none) : reversed added e = false :=
  reversed_eq_false.mpr fun r hr => by simp [h r hr]

theorem isLive_eq : isLive entries e = (e.reversesId.isNone && !reversed entries e) := rfl

end reversed

/-! ### The invariant -/

/-- What a reversal in progress holds: the opposites of the legs it is done with. -/
structure Holding (b : Cashbook) (c : Reversal) (orig : CashTransaction)
    (done todo : List CashTransaction) : Prop where
  mem : orig ∈ b.entries
  id : orig.id = c.id
  original : orig.reversesId = none
  legs : (done ++ todo).Perm (CashbookService.legs b orig)
  rows : List.Forall₂ Undoes c.rows done
  /-- nobody else has reversed them -/
  clear : ∀ leg ∈ done, reversed b.entries leg = false

def CallOk (b : Cashbook) (c : Reversal) : Prop :=
  match c.phase with
  | .asked | .reversed | .failed _ => c.rows = []
  | .found orig => c.rows = [] ∧ orig ∈ b.entries ∧ orig.id = c.id ∧ orig.reversesId = none
  | .posting orig todo => ∃ done, Holding b c orig done todo
  | .unpaying orig _ todo => ∃ done, Holding b c orig done todo

/-- No two opposites are for the same entry. -/
def Apart (rows rows' : List CashTransaction) : Prop :=
  ∀ r ∈ rows, ∀ r' ∈ rows', ∀ id, r.reversesId = some id → r'.reversesId ≠ some id

structure CashDeskInv (s : CashDesk) : Prop where
  kept : Kept s.books.cash
  once : (s.entries.filterMap (·.reversesId)).Nodup
  /-- what is reversed is there, and no reversal -/
  originals : ∀ r ∈ s.entries, ∀ id, r.reversesId = some id →
    ∃ x ∈ s.entries, x.id = id ∧ x.reversesId = none
  pairs : ∀ x ∈ s.entries, ∀ y ∈ s.entries, x.reversesId = none → y.reversesId = none →
    x.transferGroupId ≠ none → x.transferGroupId = y.transferGroupId →
    reversed s.entries x = reversed s.entries y
  balances : ∀ acc, movedOn acc s.entries = movedOn acc (s.entries.filter (isLive s.entries))
  calls : ∀ c ∈ s.calls, CallOk s.books.cash c
  apart : ∀ (i j : ℕ) (c c' : Reversal), s.calls[i]? = some c → s.calls[j]? = some c' → i ≠ j →
    Apart c.rows c'.rows

/-- The desk before its first entry. -/
structure CashDesk.Opening (s : CashDesk) : Prop where
  entries : s.entries = []
  calls : s.calls = []

theorem CashDesk.Opening.inv {s : CashDesk} (h : s.Opening) : CashDeskInv s where
  kept := .nil h.entries
  once := by simp [h.entries]
  originals := by simp [h.entries]
  pairs := by simp [h.entries]
  balances := by simp [h.entries]
  calls := by simp [h.calls]
  apart := by simp [h.calls]

/-! ### The cashbook grows -/

section growing

variable {b b' : Cashbook} {c : Reversal} {orig : CashTransaction}
  {done todo added : List CashTransaction}

/-- New entries are no legs of what was there. -/
def Beside (b : Cashbook) (added : List CashTransaction) : Prop :=
  ∀ e ∈ added, e.reversesId = none → e.transferGroupId = none ∨
    ∀ x ∈ b.entries, x.transferGroupId ≠ e.transferGroupId

theorem legs_grow (hent : b'.entries = b.entries ++ added) (hbeside : Beside b added)
    (hmem : orig ∈ b.entries) : CashbookService.legs b' orig = CashbookService.legs b orig := by
  unfold CashbookService.legs
  cases hg : orig.transferGroupId with
  | none => rfl
  | some g =>
      have hnone : added.filter (fun e => e.transferGroupId = some g && e.reversesId.isNone) = [] := by
        refine List.filter_eq_nil_iff.mpr fun e he hcond => ?_
        simp only [Bool.and_eq_true, decide_eq_true_eq, Option.isNone_iff_eq_none] at hcond
        rcases hbeside e he hcond.2 with hno | hother
        · simp [hno] at hcond
        · exact hother orig hmem (hg.trans hcond.1.symm)
      simp only [hent, List.filter_append, hnone, List.append_nil]

theorem Holding.grow (h : Holding b c orig done todo) (hent : b'.entries = b.entries ++ added)
    (hbeside : Beside b added) (hapart : Apart c.rows added) : Holding b' c orig done todo where
  mem := by
    rw [hent]
    exact List.mem_append_left _ h.mem
  id := h.id
  original := h.original
  legs := by
    rw [legs_grow hent hbeside h.mem]
    exact h.legs
  rows := h.rows
  clear := by
    intro leg hleg
    rw [hent, reversed_append, h.clear leg hleg, Bool.false_or]
    have hid : leg.id ∈ c.rows.filterMap (·.reversesId) := by
      rw [reverses_of_undoes h.rows]
      exact List.mem_map_of_mem hleg
    obtain ⟨r, hr, hrev⟩ := List.mem_filterMap.mp hid
    exact reversed_eq_false.mpr fun r' hr' => hapart r hr r' hr' leg.id hrev

theorem CallOk.grow (h : CallOk b c) (hent : b'.entries = b.entries ++ added)
    (hbeside : Beside b added) (hapart : Apart c.rows added) : CallOk b' c := by
  unfold CallOk at h ⊢
  cases hphase : c.phase with
  | asked => simpa [hphase] using h
  | reversed => simpa [hphase] using h
  | failed failure => simpa [hphase] using h
  | found orig =>
      simp only [hphase] at h
      obtain ⟨hrows, hmem, hid, horig⟩ := h
      refine ⟨hrows, ?_, hid, horig⟩
      rw [hent]
      exact List.mem_append_left _ hmem
  | posting orig todo =>
      simp only [hphase] at h
      obtain ⟨done, hd⟩ := h
      exact ⟨done, hd.grow hent hbeside hapart⟩
  | unpaying orig leg todo =>
      simp only [hphase] at h
      obtain ⟨done, hd⟩ := h
      exact ⟨done, hd.grow hent hbeside hapart⟩

end growing

variable {s t : CashDesk} {i : ℕ} {c c' : Reversal} {added : List CashTransaction}

/-- **Originals are posted: nothing that was there is reversed by them, and they are live.** -/
theorem CashDeskInv.grow (h : CashDeskInv s) (hcalls : t.calls = s.calls)
    (hent : t.entries = s.entries ++ added) (hkept : Kept t.books.cash)
    (hnone : ∀ e ∈ added, e.reversesId = none) (hbeside : Beside s.books.cash added) :
    CashDeskInv t := by
  have hrev : ∀ e, reversed t.entries e = reversed s.entries e := by
    intro e
    rw [hent, reversed_append, not_reversed_of_none hnone, Bool.or_false]
  have hnew : ∀ e ∈ added, reversed s.entries e = false := by
    intro e he
    refine reversed_eq_false.mpr fun r hr hid => ?_
    have hlt : e.id < s.entries.length := h.kept.sound r hr e.id hid
    obtain ⟨k, hk, hek⟩ := List.getElem_of_mem he
    have hids : (t.entries.map (·.id))[s.entries.length + k]? = some e.id := by
      rw [hent, List.map_append, List.getElem?_append_right (by simp), List.getElem?_map]
      simp [hek, List.getElem?_eq_getElem hk]
    have hrange : t.entries.map (·.id) = List.range t.entries.length := hkept.ids
    have hlen : s.entries.length + k < t.entries.length := by
      rw [hent, List.length_append]
      omega
    rw [hrange, List.getElem?_range hlen] at hids
    have hle : s.entries.length + k = e.id := Option.some.inj hids
    exact absurd (hle ▸ hlt) (Nat.not_lt.mpr (Nat.le_add_right _ _))
  refine ⟨hkept, ?_, ?_, ?_, ?_, ?_, ?_⟩
  · have hzero : added.filterMap (·.reversesId) = [] := List.filterMap_eq_nil_iff.mpr hnone
    rw [hent, List.filterMap_append, hzero, List.append_nil]
    exact h.once
  · intro r hr id hid
    rw [hent, List.mem_append] at hr
    rcases hr with hr | hr
    · obtain ⟨x, hx, hxid, horig⟩ := h.originals r hr id hid
      refine ⟨x, ?_, hxid, horig⟩
      rw [hent]
      exact List.mem_append_left _ hx
    · simp [hnone r hr] at hid
  · intro x hx y hy hxo hyo hgroup hsame
    rw [hrev, hrev]
    rw [hent, List.mem_append] at hx hy
    rcases hx with hx | hx
    · rcases hy with hy | hy
      · exact h.pairs x hx y hy hxo hyo hgroup hsame
      · rcases hbeside y hy hyo with hno | hother
        · exact absurd (hsame.trans hno) hgroup
        · exact absurd hsame (hother x hx)
    · rcases hy with hy | hy
      · rcases hbeside x hx hxo with hno | hother
        · exact absurd hno hgroup
        · exact absurd hsame.symm (hother y hy)
      · rw [hnew x hx, hnew y hy]
  · intro acc
    have hlive : t.entries.filter (isLive t.entries) = s.entries.filter (isLive s.entries) ++ added := by
      have hsame : ∀ e, isLive t.entries e = isLive s.entries e := fun e => by
        rw [isLive_eq, isLive_eq, hrev]
      have hall : added.filter (isLive s.entries) = added := by
        refine List.filter_eq_self.mpr fun e he => ?_
        rw [isLive_eq, hnew e he, hnone e he]
        rfl
      rw [List.filter_congr fun e _ => hsame e, hent, List.filter_append, hall]
    rw [hlive, hent, movedOn_append, movedOn_append, h.balances]
  · intro c hc
    rw [hcalls] at hc
    refine (h.calls c hc).grow hent hbeside fun r _ r' hr' id _ => ?_
    simp [hnone r' hr']
  · rw [hcalls]
    exact h.apart

/-- A reversal moves on, and what it inserted is nobody else's. -/
theorem CashDeskInv.setCall (h : CashDeskInv s) (hc' : CallOk s.books.cash c')
    (hrows : ∀ (j : ℕ) (d : Reversal), s.calls[j]? = some d → j ≠ i → Apart c'.rows d.rows) :
    CashDeskInv (s.setCall i c') := by
  refine ⟨h.kept, h.once, h.originals, h.pairs, h.balances, fun d hd => ?_, ?_⟩
  · rcases List.mem_or_eq_of_mem_set hd with hd | rfl
    · exact h.calls d hd
    · exact hc'
  · intro j k d d' hj hk hne
    simp only [CashDesk.setCall, List.getElem?_set] at hj hk
    split at hj
    · rename_i hij
      split at hj
      · rw [if_neg (hij ▸ hne)] at hk
        obtain rfl := Option.some.inj hj
        exact hrows k d' hk (hij ▸ hne.symm)
      · cases hj
    · rename_i hij
      split at hk
      · rename_i hik
        split at hk
        · obtain rfl := Option.some.inj hk
          intro r hr r' hr' id hid hid'
          exact hrows j d hj (Ne.symm hij) r' hr' r hr id hid' hid
        · cases hk
      · exact h.apart j k d d' hj hk hne

/-- It moves on with the rows it had, or none. -/
theorem CashDeskInv.setCall_rows (h : CashDeskInv s) (hi : s.calls[i]? = some c)
    (hc' : CallOk s.books.cash c') (hrows : ∀ r ∈ c'.rows, r ∈ c.rows) :
    CashDeskInv (s.setCall i c') :=
  h.setCall hc' fun j d hj hne r hr => h.apart i j c d hi hj hne.symm r (hrows r hr)

theorem CashDeskInv.fail (h : CashDeskInv s) (hi : s.calls[i]? = some c) (failure : Failure) :
    CashDeskInv (s.fail i c failure) :=
  h.setCall_rows hi rfl (by simp)

/-! ### The statements of a reversal -/

theorem Holding.leg_mem {b : Cashbook} {orig leg : CashTransaction}
    {done todo : List CashTransaction} (h : Holding b c orig done todo) (hleg : leg ∈ done ++ todo) :
    leg ∈ b.entries ∧ leg.reversesId = none := by
  have hmem : leg ∈ CashbookService.legs b orig := h.legs.subset hleg
  unfold CashbookService.legs at hmem
  split at hmem
  · obtain ⟨hin, hcond⟩ := List.mem_filter.mp hmem
    simp only [Bool.and_eq_true, Option.isNone_iff_eq_none] at hcond
    exact ⟨hin, hcond.2⟩
  · rw [List.mem_singleton.mp hmem]
    exact ⟨h.mem, h.original⟩

/-- What the insert for a leg appends to the rows, and what the unique index made sure of. -/
theorem seen_reverseLeg {b : Cashbook} {reason : String} {group : Option ℕ} {now : Instant}
    {leg : CashTransaction} (hkept : Kept s.books.cash) (hmem : leg ∈ s.entries)
    (h : CashbookService.reverseLeg reason group now (s.seen c) leg = .ok b) :
    ∃ row, b.entries.drop s.entries.length = c.rows ++ [row] ∧ Undoes row leg ∧
      reversed s.entries leg = false := by
  unfold CashbookService.reverseLeg at h
  split at h
  · cases h
  rename_i hfree
  obtain ⟨hent, -⟩ := post_onto rfl h
  have hseen : (s.seen c).entries = s.entries ++ c.rows := rfl
  have hnone : reversed (s.entries ++ c.rows) leg = false := by
    rw [hseen] at hfree
    simpa only [reversed, Bool.not_eq_true] using hfree
  rw [reversed_append, Bool.or_eq_false_iff] at hnone
  rw [hseen, List.append_assoc] at hent
  have hdrop := congrArg (List.drop s.entries.length) hent
  rw [List.drop_left] at hdrop
  refine ⟨_, hdrop, ⟨rfl, rfl, ?_, ?_⟩, hnone.1⟩
  · exact hkept.places leg hmem
  · exact signed_opposite rfl (hkept.places leg hmem)

theorem not_waitsFor {leg : CashTransaction} {j : ℕ} {d : Reversal} (h : ¬ s.waitsFor i leg = true)
    (hj : s.calls[j]? = some d) (hne : j ≠ i) : ∀ r ∈ d.rows, r.reversesId ≠ some leg.id := by
  have hfree : ¬ (j ≠ i && reversed d.rows leg) = true := fun hcond =>
    h (List.any_eq_true.mpr ⟨(d, j), List.mem_zipIdx_iff_getElem?.mpr hj, hcond⟩)
  have hnone : reversed d.rows leg = false := by simpa [hne] using hfree
  exact reversed_eq_false.mp hnone

theorem find_inv (h : CashDeskInv s) (hi : s.calls[i]? = some c) (hstep : s.find i c = some t) :
    CashDeskInv t := by
  unfold CashDesk.find at hstep
  split at hstep
  · rename_i hphase
    have hrows : c.rows = [] := by
      have hok := h.calls c (List.mem_of_getElem? hi)
      simpa [CallOk, hphase] using hok
    split at hstep
    · obtain rfl := Option.some.inj hstep
      exact h.fail hi _
    rename_i orig hl
    split at hstep
    · obtain rfl := Option.some.inj hstep
      exact h.fail hi _
    rename_i horig
    split at hstep
    · obtain rfl := Option.some.inj hstep
      exact h.fail hi _
    obtain rfl := Option.some.inj hstep
    refine h.setCall_rows hi ⟨hrows, Rows.mem_of_lookup hl, Rows.key_of_lookup hl, ?_⟩ fun r hr => hr
    simpa using horig
  · cases hstep

theorem findLegs_inv {order : List CashTransaction} (h : CashDeskInv s)
    (hi : s.calls[i]? = some c) (hstep : s.findLegs i c order = some t) : CashDeskInv t := by
  unfold CashDesk.findLegs at hstep
  split at hstep
  · rename_i orig hphase
    have hok := h.calls c (List.mem_of_getElem? hi)
    simp only [CallOk, hphase] at hok
    obtain ⟨hrows, hmem, hid, horig⟩ := hok
    split at hstep
    · rename_i hperm
      split at hstep
      · obtain rfl := Option.some.inj hstep
        exact h.fail hi _
      · obtain rfl := Option.some.inj hstep
        refine h.setCall_rows hi ⟨[], hmem, hid, horig, hperm, ?_, by simp⟩ fun r hr => hr
        rw [show ({ c with phase := .posting orig order } : Reversal).rows = [] from hrows]
        exact .nil
    · cases hstep
  · cases hstep

/-- **The unique index lets a row in only where no other is in the way.** -/
theorem insert_inv (h : CashDeskInv s) (hi : s.calls[i]? = some c)
    (hstep : s.insert i c = some t) : CashDeskInv t := by
  unfold CashDesk.insert at hstep
  split at hstep
  · rename_i orig leg todo hphase
    have hok := h.calls c (List.mem_of_getElem? hi)
    simp only [CallOk, hphase] at hok
    obtain ⟨done, hd⟩ := hok
    split at hstep
    · cases hstep
    rename_i hwait
    split at hstep
    · obtain rfl := Option.some.inj hstep
      exact h.fail hi _
    · obtain rfl := Option.some.inj hstep
      exact h.fail hi _
    rename_i b hleg
    obtain rfl := Option.some.inj hstep
    obtain ⟨row, hrows, hundoes, hclear⟩ :=
      seen_reverseLeg h.kept (hd.leg_mem (by simp)).1 hleg
    have hlegs : ((done ++ [leg]) ++ todo).Perm (CashbookService.legs s.books.cash orig) := by
      simpa using hd.legs
    have hhold : Holding s.books.cash
        { c with phase := nextPhase orig leg todo, rows := b.entries.drop s.entries.length }
        orig (done ++ [leg]) todo := by
      refine ⟨hd.mem, hd.id, hd.original, hlegs, ?_, fun l hl => ?_⟩
      · rw [hrows]
        exact List.rel_append hd.rows (.cons hundoes .nil)
      · rcases List.mem_append.mp hl with hl | hl
        · exact hd.clear l hl
        · rw [List.mem_singleton.mp hl]
          exact hclear
    refine h.setCall ?_ fun j d hj hne r hr r' hr' id hid hid' => ?_
    · by_cases hbill : (CashbookService.unpaid leg).isSome
      · simp only [CallOk, nextPhase, if_pos hbill] at hhold ⊢
        exact ⟨_, hhold⟩
      · simp only [CallOk, nextPhase, if_neg hbill] at hhold ⊢
        exact ⟨_, hhold⟩
    · simp only [hrows, List.mem_append, List.mem_singleton] at hr
      rcases hr with hr | rfl
      · exact h.apart i j c d hi hj (Ne.symm hne) r hr r' hr' id hid hid'
      · rw [hundoes.reverses] at hid
        have hothers := not_waitsFor hwait hj hne r' hr'
        rw [hid', hid] at hothers
        exact hothers rfl
  · cases hstep

theorem unpay_inv (h : CashDeskInv s) (hi : s.calls[i]? = some c) (hstep : s.unpay i c = some t) :
    CashDeskInv t := by
  unfold CashDesk.unpay at hstep
  split at hstep
  · rename_i orig leg todo hphase
    have hok := h.calls c (List.mem_of_getElem? hi)
    simp only [CallOk, hphase] at hok
    obtain ⟨done, hd⟩ := hok
    split at hstep
    · cases hstep
    split at hstep
    · cases hstep
    split at hstep
    · obtain rfl := Option.some.inj hstep
      exact h.fail hi _
    · obtain rfl := Option.some.inj hstep
      exact h.setCall_rows hi
        ⟨done, hd.mem, hd.id, hd.original, hd.legs, hd.rows, hd.clear⟩ fun r hr => hr
  · cases hstep

theorem abort_inv {again : Bool} (h : CashDeskInv s) (hi : s.calls[i]? = some c)
    (hstep : s.abort i c again = some t) : CashDeskInv t := by
  unfold CashDesk.abort at hstep
  split at hstep
  · cases hstep
  · cases hstep
  · split at hstep
    · obtain rfl := Option.some.inj hstep
      exact h.setCall_rows hi rfl (by simp)
    · obtain rfl := Option.some.inj hstep
      exact h.fail hi _

/-! ### A commit -/

section commit

variable {orig : CashTransaction} {done : List CashTransaction}

theorem numberedRows_undoes {entries rows : List CashTransaction}
    (h : List.Forall₂ Undoes rows done) : List.Forall₂ Undoes (numberedRows entries rows) done := by
  have hall : ∀ f : ℕ → EntryId,
      List.Forall₂ Undoes (rows.mapIdx fun k r => { r with id := f k }) done := by
    induction h with
    | nil => exact fun _ => .nil
    | cons hu _ ih =>
        intro f
        rw [List.mapIdx_cons]
        exact .cons (hu.numbered _) (ih fun k => f (k + 1))
  exact hall fun k => entries.length + k

theorem numberedRows_ids (entries rows : List CashTransaction) :
    (numberedRows entries rows).map (·.id) =
      (List.range (numberedRows entries rows).length).map fun k => entries.length + k := by
  refine List.ext_getElem (by simp) fun k hk hk' => ?_
  simp [numberedRows]

/-- The legs are different entries that nobody has reversed. -/
theorem legs_ids_nodup (h : Kept s.books.cash) :
    ((CashbookService.legs s.books.cash orig).map (·.id)).Nodup := by
  unfold CashbookService.legs
  split
  · exact h.nodup.sublist (List.filter_sublist.map _)
  · exact List.nodup_singleton _

/-- A leg is turned around exactly with the legs it belongs to. -/
theorem mem_legs_iff {x y : CashTransaction}
    (hx : x ∈ s.entries) (hy : y ∈ s.entries) (hxo : x.reversesId = none) (hyo : y.reversesId = none)
    (hgroup : x.transferGroupId ≠ none) (hsame : x.transferGroupId = y.transferGroupId) :
    x ∈ CashbookService.legs s.books.cash orig ↔ y ∈ CashbookService.legs s.books.cash orig := by
  unfold CashbookService.legs
  split
  · rename_i g hg
    simp only [List.mem_filter, hsame, hxo, hyo]
    exact ⟨fun h => ⟨hy, h.2⟩, fun h => ⟨hx, h.2⟩⟩
  · rename_i hnone
    simp only [List.mem_singleton]
    constructor
    · rintro rfl
      exact absurd hnone hgroup
    · rintro rfl
      exact absurd (hsame.trans hnone) hgroup

/-- What a commit does to the entries. -/
structure Turned (entries entries' legs rows : List CashTransaction) : Prop where
  grown : entries' = entries ++ rows
  undoes : List.Forall₂ Undoes rows legs
  mem : ∀ leg ∈ legs, leg ∈ entries ∧ leg.reversesId = none
  nodup : (legs.map (·.id)).Nodup
  clear : ∀ leg ∈ legs, reversed entries leg = false

variable {entries entries' legs rows : List CashTransaction}

theorem Turned.row (h : Turned entries entries' legs rows) {r : CashTransaction} (hr : r ∈ rows) :
    ∃ leg ∈ legs, Undoes r leg := by
  obtain ⟨k, hk, rfl⟩ := List.getElem_of_mem hr
  have hk' : k < legs.length := h.undoes.length_eq ▸ hk
  exact ⟨legs[k], List.getElem_mem hk', h.undoes.get hk hk'⟩

theorem Turned.reversed_rows (h : Turned entries entries' legs rows) (hids : (entries.map (·.id)).Nodup)
    {x : CashTransaction} (hx : x ∈ entries) : reversed rows x = true ↔ x ∈ legs := by
  have hmem : reversed rows x = true ↔ x.id ∈ rows.filterMap (·.reversesId) := by
    rw [reversed_eq_true, List.mem_filterMap]
  rw [hmem, reverses_of_undoes h.undoes, List.mem_map]
  constructor
  · rintro ⟨leg, hleg, hid⟩
    rwa [List.inj_on_of_nodup_map hids (h.mem leg hleg).1 hx hid] at hleg
  · exact fun hleg => ⟨x, hleg, rfl⟩

/-- **Every balance is what it would be without the legs.** -/
theorem Turned.restores (h : Turned entries entries' legs rows) (hids : (entries.map (·.id)).Nodup)
    (acc : AccountId) : movedOn acc entries' = movedOn acc (entries.filter (· ∉ legs)) := by
  rw [movedOn_without (hids.of_map _) (h.nodup.of_map _) fun l hl => (h.mem l hl).1, h.grown,
    movedOn_append, movedOn_undoes h.undoes]
  ring

theorem Turned.live (h : Turned entries entries' legs rows) (hids : (entries.map (·.id)).Nodup) :
    entries'.filter (isLive entries') = (entries.filter (isLive entries)).filter (· ∉ legs) := by
  have hrows : rows.filter (isLive entries') = [] := by
    refine List.filter_eq_nil_iff.mpr fun r hr => ?_
    obtain ⟨leg, -, hu⟩ := h.row hr
    rw [isLive_eq, hu.reverses]
    simp
  have hstay : ∀ x ∈ entries, isLive entries' x = (isLive entries x && decide (x ∉ legs)) := by
    intro x hx
    rw [isLive_eq, isLive_eq, h.grown, reversed_append, Bool.not_or, ← Bool.and_assoc]
    congr 1
    rw [Bool.eq_iff_iff, decide_eq_true_eq, ← h.reversed_rows hids hx]
    simp
  conv_lhs => rw [h.grown]
  rw [List.filter_append, ← h.grown, hrows, List.append_nil, List.filter_congr hstay, List.filter_filter]
  exact List.filter_congr fun x _ => Bool.and_comm _ _

theorem Turned.once (h : Turned entries entries' legs rows)
    (honce : (entries.filterMap (·.reversesId)).Nodup) :
    (entries'.filterMap (·.reversesId)).Nodup := by
  rw [h.grown, List.filterMap_append, reverses_of_undoes h.undoes]
  refine List.nodup_append.mpr ⟨honce, h.nodup, fun id hid id' hid' heq => ?_⟩
  obtain ⟨r, hr, hrev⟩ := List.mem_filterMap.mp hid
  obtain ⟨leg, hleg, rfl⟩ := List.mem_map.mp hid'
  exact reversed_eq_false.mp (h.clear leg hleg) r hr (hrev.trans (congrArg some heq))

/-- The cashbook stays in order. -/
theorem Turned.kept {b b' : Cashbook} (h : Turned b.entries b'.entries legs rows) (hb : Kept b)
    (hids : rows.map (·.id) = (List.range rows.length).map fun k => b.entries.length + k) :
    Kept b' := by
  refine ⟨?_, fun r hr id hid => ?_, fun r hr => ?_, fun r hr => ?_⟩
  · rw [h.grown, List.map_append, List.length_append, List.range_add, hb.ids, hids]
  · have hlt : id < b.entries.length := by
      rw [h.grown, List.mem_append] at hr
      rcases hr with hr | hr
      · exact hb.sound r hr id hid
      · obtain ⟨leg, hleg, hu⟩ := h.row hr
        obtain rfl : leg.id = id := Option.some.inj (hu.reverses.symm.trans hid)
        exact hb.id_lt (h.mem leg hleg).1
    rw [h.grown, List.length_append]
    exact hlt.trans_le (Nat.le_add_right _ _)
  · rw [h.grown, List.mem_append] at hr
    rcases hr with hr | hr
    · exact hb.positive r hr
    · obtain ⟨leg, hleg, hu⟩ := h.row hr
      rw [hu.amount]
      exact hb.positive leg (h.mem leg hleg).1
  · rw [h.grown, List.mem_append] at hr
    rcases hr with hr | hr
    · exact hb.places r hr
    · obtain ⟨leg, hleg, hu⟩ := h.row hr
      rw [hu.amount]
      exact hb.places leg (h.mem leg hleg).1

/-- The commit of a reversal turns around the legs of its entry. -/
structure Commits (s t : CashDesk) (i : ℕ) (c : Reversal) (orig : CashTransaction)
    (done : List CashTransaction) : Prop where
  phase : c.phase = .posting orig []
  holding : Holding s.books.cash c orig done []
  calls : t.calls = s.calls.set i { c with phase := .reversed, rows := [], bills := [] }
  turned : Turned s.entries t.entries done (numberedRows s.entries c.rows)

theorem Commits.perm {done : List CashTransaction} (h : Commits s t i c orig done) :
    done.Perm (CashbookService.legs s.books.cash orig) := by
  simpa using h.holding.legs

/-- The committed rows are the ones the reversal inserted. -/
theorem Commits.row_of {done : List CashTransaction} (h : Commits s t i c orig done)
    {r : CashTransaction} (hr : r ∈ numberedRows s.entries c.rows) {id : EntryId}
    (hid : r.reversesId = some id) : ∃ q ∈ c.rows, q.reversesId = some id := by
  have hmem : id ∈ (numberedRows s.entries c.rows).filterMap (·.reversesId) :=
    List.mem_filterMap.mpr ⟨r, hr, hid⟩
  rw [reverses_of_undoes h.turned.undoes, ← reverses_of_undoes h.holding.rows] at hmem
  exact List.mem_filterMap.mp hmem

theorem commit_turns (h : CashDeskInv s) (hi : s.calls[i]? = some c)
    (hstep : s.commit i c = some t) : ∃ orig done, Commits s t i c orig done := by
  unfold CashDesk.commit at hstep
  split at hstep
  · rename_i orig hphase
    have hok := h.calls c (List.mem_of_getElem? hi)
    simp only [CallOk, hphase] at hok
    obtain ⟨done, hd⟩ := hok
    obtain rfl := Option.some.inj hstep
    have hperm : done.Perm (CashbookService.legs s.books.cash orig) := by simpa using hd.legs
    refine ⟨orig, done, hphase, hd, rfl, rfl, numberedRows_undoes hd.rows, fun leg hleg => ?_, ?_,
      hd.clear⟩
    · exact hd.leg_mem (List.mem_append_left _ hleg)
    · exact (hperm.map _).nodup_iff.mpr (legs_ids_nodup h.kept)
  · cases hstep

theorem Commits.inv {done : List CashTransaction} (hc : Commits s t i c orig done)
    (h : CashDeskInv s) (hi : s.calls[i]? = some c) : CashDeskInv t := by
  have hturn := hc.turned
  have hids : (s.entries.map (·.id)).Nodup := h.kept.nodup
  have hrev : ∀ x ∈ s.entries, reversed t.entries x =
      (reversed s.entries x || decide (x ∈ CashbookService.legs s.books.cash orig)) := by
    intro x hx
    rw [hturn.grown, reversed_append]
    congr 1
    rw [Bool.eq_iff_iff, decide_eq_true_eq, hturn.reversed_rows hids hx, hc.perm.mem_iff]
  have hold : ∀ x ∈ t.entries, x.reversesId = none → x ∈ s.entries := by
    intro x hx hxo
    rw [hturn.grown, List.mem_append] at hx
    rcases hx with hx | hx
    · exact hx
    · obtain ⟨leg, -, hu⟩ := hturn.row hx
      exact absurd (hu.reverses.symm.trans hxo) (by simp)
  have hbeside : Beside s.books.cash (numberedRows s.entries c.rows) := by
    intro e he heo
    obtain ⟨leg, -, hu⟩ := hturn.row he
    exact absurd (hu.reverses.symm.trans heo) (by simp)
  have hcalls : ∀ (j : ℕ) (d : Reversal), t.calls[j]? = some d →
      (j = i ∧ d = { c with phase := .reversed, rows := [], bills := [] }) ∨
        (j ≠ i ∧ s.calls[j]? = some d) := by
    intro j d hj
    rw [hc.calls, List.getElem?_set] at hj
    split at hj
    · rename_i hij
      split at hj
      · exact .inl ⟨hij.symm, (Option.some.inj hj).symm⟩
      · cases hj
    · rename_i hij
      exact .inr ⟨Ne.symm hij, hj⟩
  refine ⟨hturn.kept h.kept (numberedRows_ids _ _), hturn.once h.once, ?_, ?_, fun acc => ?_, ?_, ?_⟩
  · intro r hr id hid
    have hin : ∃ x ∈ s.entries, x.id = id ∧ x.reversesId = none := by
      rw [hturn.grown, List.mem_append] at hr
      rcases hr with hr | hr
      · exact h.originals r hr id hid
      · obtain ⟨leg, hleg, hu⟩ := hturn.row hr
        obtain rfl : leg.id = id := Option.some.inj (hu.reverses.symm.trans hid)
        exact ⟨leg, (hturn.mem leg hleg).1, rfl, (hturn.mem leg hleg).2⟩
    obtain ⟨x, hx, hxid⟩ := hin
    refine ⟨x, ?_, hxid⟩
    rw [hturn.grown]
    exact List.mem_append_left _ hx
  · intro x hx y hy hxo hyo hgroup hsame
    have hxs := hold x hx hxo
    have hys := hold y hy hyo
    rw [hrev x hxs, hrev y hys, h.pairs x hxs y hys hxo hyo hgroup hsame]
    congr 1
    exact decide_eq_decide.mpr (mem_legs_iff hxs hys hxo hyo hgroup hsame)
  · rw [hturn.restores hids, hturn.live hids]
    have hsub : ∀ leg ∈ done, leg ∈ s.entries.filter (isLive s.entries) := by
      intro leg hleg
      obtain ⟨hin, horig⟩ := hturn.mem leg hleg
      refine List.mem_filter.mpr ⟨hin, ?_⟩
      rw [isLive_eq, horig, hturn.clear leg hleg]
      rfl
    have hnd : s.entries.Nodup := hids.of_map _
    have hdone : done.Nodup := hturn.nodup.of_map _
    rw [movedOn_without hnd hdone fun leg hleg => (hturn.mem leg hleg).1,
      movedOn_without (hnd.filter _) hdone hsub, h.balances]
  · intro d hd
    obtain ⟨j, hj⟩ := List.mem_iff_getElem?.mp hd
    rcases hcalls j d hj with ⟨-, rfl⟩ | ⟨hne, hj⟩
    · rfl
    · refine (h.calls d (List.mem_of_getElem? hj)).grow hturn.grown hbeside ?_
      intro r hr r' hr' id hid hid'
      obtain ⟨q, hq, hqid⟩ := hc.row_of hr' hid'
      exact h.apart j i d c hj hi hne r hr q hq id hid hqid
  · intro j k d d' hj hk hne
    rcases hcalls j d hj with ⟨-, rfl⟩ | ⟨hji, hj⟩
    · exact fun r hr => by simp at hr
    · rcases hcalls k d' hk with ⟨-, rfl⟩ | ⟨hki, hk⟩
      · exact fun r _ r' hr' => by simp at hr'
      · exact h.apart j k d d' hj hk hne

end commit

/-! ### Postings of originals -/

section posted

variable {b b' b₁ : Cashbook} {e : PostEntry} {group : Option ℕ}

/-- What calls post that are no reversals: originals, some of them under a new group. -/
def Posted (group : Option ℕ) (b b' : Cashbook) : Prop :=
  Kept b' ∧ ∃ added, b'.entries = b.entries ++ added ∧ ∀ x ∈ added, x.reversesId = none ∧
    (x.transferGroupId = none ∨ x.transferGroupId = group)

theorem Posted.refl (h : Kept b) : Posted group b b := ⟨h, [], by simp, by simp⟩

theorem Posted.of_entries (h : Posted group b b₁) (he : b'.entries = b₁.entries) :
    Posted group b b' := by
  obtain ⟨hkept, added, hent, hadded⟩ := h
  exact ⟨hkept.of_entries he, added, he.trans hent, hadded⟩

theorem Posted.post (h : Posted group b b₁) (hnone : e.reversesId = none)
    (hgroup : e.transferGroupId = none ∨ e.transferGroupId = group)
    (hpost : CashLedger.post b₁ e = .ok b') : Posted group b b' := by
  obtain ⟨hkept, added, hent, hadded⟩ := h
  obtain ⟨-, acc, hent'⟩ := post_ok hpost
  refine ⟨hkept.post (by simp [hnone]) hpost, added ++ [e.row b₁.entries.length acc], ?_, ?_⟩
  · rw [hent', hent, List.append_assoc]
  · intro x hx
    rcases List.mem_append.mp hx with hx | hx
    · exact hadded x hx
    · rw [List.mem_singleton.mp hx]
      exact ⟨hnone, hgroup⟩

theorem transfer_posted {dto : TransferDto} {g : ℕ} {now : Instant} (hb : Kept b)
    (h : CashbookService.transfer b dto g now = .ok b') : Posted (some g) b b' := by
  unfold CashbookService.transfer at h
  split at h
  · cases h
  obtain ⟨occurredAt, -, h⟩ := Result.bind_ok.mp h
  obtain ⟨⟨b₁, source⟩, hsource, h⟩ := Result.bind_ok.mp h
  obtain ⟨⟨b₂, dest⟩, hdest, h⟩ := Result.bind_ok.mp h
  obtain ⟨b₃, hout, hin⟩ := Result.bind_ok.mp h
  have hstart : Posted (some g) b b₂ :=
    (Posted.refl hb).of_entries ((account_entries hdest).trans (account_entries hsource))
  exact (hstart.post rfl (.inr rfl) hout).post rfl (.inr rfl) hin

end posted

theorem CashDeskInv.posted {group : Option ℕ} (h : CashDeskInv s) (hcalls : t.calls = s.calls)
    (hpost : Posted group s.books.cash t.books.cash)
    (hfresh : ∀ g, group = some g → s.freshGroup g = true) : CashDeskInv t := by
  obtain ⟨hkept, added, hent, hadded⟩ := hpost
  refine h.grow hcalls hent hkept (fun x hx => (hadded x hx).1) fun x hx _ => ?_
  rcases (hadded x hx).2 with hno | hgroup
  · exact .inl hno
  · cases hg : group with
    | none => exact .inl (hgroup.trans hg)
    | some g =>
        right
        intro y hy hsame
        have hne := List.all_eq_true.mp (hfresh g hg) y hy
        rw [hsame, hgroup, hg] at hne
        simp at hne

theorem CashDeskInv.asked (h : CashDeskInv s) (hok : CallOk s.books.cash c') (hrows : c'.rows = []) :
    CashDeskInv { s with calls := s.calls ++ [c'] } := by
  have hnew : ∀ (j : ℕ) (d : Reversal), (s.calls ++ [c'])[j]? = some d →
      s.calls[j]? = some d ∨ d.rows = [] := by
    intro j d hj
    rw [List.getElem?_append] at hj
    split at hj
    · exact .inl hj
    · right
      rwa [List.mem_singleton.mp (List.mem_of_getElem? hj)]
  refine ⟨h.kept, h.once, h.originals, h.pairs, h.balances, fun d hd => ?_, ?_⟩
  · rcases List.mem_append.mp hd with hd | hd
    · exact h.calls d hd
    · rwa [List.mem_singleton.mp hd]
  · intro j k d d' hj hk hne
    rcases hnew j d hj with hj | hnone
    · rcases hnew k d' hk with hk | hnone
      · exact h.apart j k d d' hj hk hne
      · intro r _ r' hr'
        simp [hnone] at hr'
    · intro r hr
      simp [hnone] at hr

/-- **Every step keeps the desk in order.** -/
theorem cashStep_inv {a : CashAction} (h : CashDeskInv s) (hstep : cashStep s a = some t) :
    CashDeskInv t := by
  cases a with
  | ask id reason group now =>
      obtain rfl := Option.some.inj hstep
      exact h.asked rfl rfl
  | find i =>
      obtain ⟨c, hi, hc⟩ := Option.bind_eq_some_iff.mp hstep
      exact find_inv h hi hc
  | findLegs i order =>
      obtain ⟨c, hi, hc⟩ := Option.bind_eq_some_iff.mp hstep
      exact findLegs_inv h hi hc
  | insert i =>
      obtain ⟨c, hi, hc⟩ := Option.bind_eq_some_iff.mp hstep
      exact insert_inv h hi hc
  | unpay i =>
      obtain ⟨c, hi, hc⟩ := Option.bind_eq_some_iff.mp hstep
      exact unpay_inv h hi hc
  | commit i =>
      obtain ⟨c, hi, hc⟩ := Option.bind_eq_some_iff.mp hstep
      obtain ⟨orig, done, hturn⟩ := commit_turns h hi hc
      exact hturn.inv h hi
  | abort i again =>
      obtain ⟨c, hi, hc⟩ := Option.bind_eq_some_iff.mp hstep
      exact abort_inv h hi hc
  | transfer dto group now =>
      simp only [cashStep] at hstep
      split at hstep
      · rename_i hfresh
        obtain ⟨b, hb, rfl⟩ := Option.map_eq_some_iff.mp hstep
        refine h.posted rfl (transfer_posted h.kept (Result.toOption_some.mp hb)) fun g hg => ?_
        rwa [Option.some.inj hg] at hfresh
      · cases hstep
  | codRemittance dto group now =>
      simp only [cashStep] at hstep
      split at hstep
      · rename_i hfresh
        obtain ⟨b, hb, rfl⟩ := Option.map_eq_some_iff.mp hstep
        have hpost := (CashbookService.codRemittance_keeps (I := Posted (some group) s.books.cash)
          (fun _ _ he hc => hc.of_entries he) (fun _ _ _ hnone hg hp hc => hc.post hnone hg hp)
          (Result.toOption_some.mp hb) (Posted.refl h.kept)).1
        refine h.posted rfl hpost fun g hg => ?_
        rwa [Option.some.inj hg] at hfresh
      · cases hstep
  | post e =>
      simp only [cashStep] at hstep
      split at hstep
      · rename_i hplain
        obtain ⟨b, hb, rfl⟩ := Option.map_eq_some_iff.mp hstep
        simp only [Bool.and_eq_true, Option.isNone_iff_eq_none] at hplain
        have hpost : Posted none s.books.cash b :=
          (Posted.refl h.kept).post hplain.1 (.inl hplain.2) (Result.toOption_some.mp hb)
        exact h.posted rfl hpost (by simp)
      · cases hstep
  | change books purchases =>
      simp only [cashStep] at hstep
      split at hstep
      · rename_i hsame
        simp only [Bool.and_eq_true, decide_eq_true_eq] at hsame
        obtain rfl := Option.some.inj hstep
        have hpost : Posted none s.books.cash books.cash :=
          (Posted.refl h.kept).of_entries hsame.1
        exact h.posted rfl hpost (by simp)
      · cases hstep

/-! ### What a reversal leaves alone -/

/-- Only the call itself moves on. -/
structure Sets (s t : CashDesk) (i : ℕ) (c : Reversal) : Prop where
  active : c.phase ≠ .reversed
  sets : ∃ c', t = s.setCall i c'

theorem find_sets (h : s.find i c = some t) : Sets s t i c := by
  unfold CashDesk.find at h
  split at h
  · rename_i hphase
    refine ⟨by simp [hphase], ?_⟩
    split at h
    · exact ⟨_, (Option.some.inj h).symm⟩
    split at h
    · exact ⟨_, (Option.some.inj h).symm⟩
    split at h
    · exact ⟨_, (Option.some.inj h).symm⟩
    · exact ⟨_, (Option.some.inj h).symm⟩
  · cases h

theorem findLegs_sets {order : List CashTransaction} (h : s.findLegs i c order = some t) :
    Sets s t i c := by
  unfold CashDesk.findLegs at h
  split at h
  · rename_i hphase
    refine ⟨by simp [hphase], ?_⟩
    split at h
    · split at h
      · exact ⟨_, (Option.some.inj h).symm⟩
      · exact ⟨_, (Option.some.inj h).symm⟩
    · cases h
  · cases h

theorem insert_sets (h : s.insert i c = some t) : Sets s t i c := by
  unfold CashDesk.insert at h
  split at h
  · rename_i hphase
    refine ⟨by simp [hphase], ?_⟩
    split at h
    · cases h
    split at h
    · exact ⟨_, (Option.some.inj h).symm⟩
    · exact ⟨_, (Option.some.inj h).symm⟩
    · exact ⟨_, (Option.some.inj h).symm⟩
  · cases h

theorem unpay_sets (h : s.unpay i c = some t) : Sets s t i c := by
  unfold CashDesk.unpay at h
  split at h
  · rename_i hphase
    refine ⟨by simp [hphase], ?_⟩
    split at h
    · cases h
    split at h
    · cases h
    split at h
    · exact ⟨_, (Option.some.inj h).symm⟩
    · exact ⟨_, (Option.some.inj h).symm⟩
  · cases h

theorem abort_sets {again : Bool} (h : s.abort i c again = some t) : Sets s t i c := by
  unfold CashDesk.abort at h
  split at h
  · cases h
  · cases h
  · rename_i hreversed _
    refine ⟨hreversed, ?_⟩
    split at h
    · exact ⟨_, (Option.some.inj h).symm⟩
    · exact ⟨_, (Option.some.inj h).symm⟩

/-- A step asks for a reversal, moves one on, commits one, or is none of them. -/
theorem cashStep_cases {a : CashAction} (hstep : cashStep s a = some t) :
    (∃ new, t = { s with calls := s.calls ++ [new] }) ∨
      (∃ i c, s.calls[i]? = some c ∧ Sets s t i c) ∨
      (a.unfinished = false ∧
        ((∃ i c, s.calls[i]? = some c ∧ s.commit i c = some t) ∨ t.calls = s.calls)) := by
  cases a with
  | ask id reason group now => exact .inl ⟨_, (Option.some.inj hstep).symm⟩
  | find i =>
      obtain ⟨c, hi, hc⟩ := Option.bind_eq_some_iff.mp hstep
      exact .inr (.inl ⟨i, c, hi, find_sets hc⟩)
  | findLegs i order =>
      obtain ⟨c, hi, hc⟩ := Option.bind_eq_some_iff.mp hstep
      exact .inr (.inl ⟨i, c, hi, findLegs_sets hc⟩)
  | insert i =>
      obtain ⟨c, hi, hc⟩ := Option.bind_eq_some_iff.mp hstep
      exact .inr (.inl ⟨i, c, hi, insert_sets hc⟩)
  | unpay i =>
      obtain ⟨c, hi, hc⟩ := Option.bind_eq_some_iff.mp hstep
      exact .inr (.inl ⟨i, c, hi, unpay_sets hc⟩)
  | abort i again =>
      obtain ⟨c, hi, hc⟩ := Option.bind_eq_some_iff.mp hstep
      exact .inr (.inl ⟨i, c, hi, abort_sets hc⟩)
  | commit i =>
      obtain ⟨c, hi, hc⟩ := Option.bind_eq_some_iff.mp hstep
      exact .inr (.inr ⟨rfl, .inl ⟨i, c, hi, hc⟩⟩)
  | transfer dto group now =>
      simp only [cashStep] at hstep
      split at hstep
      · obtain ⟨b, -, rfl⟩ := Option.map_eq_some_iff.mp hstep
        exact .inr (.inr ⟨rfl, .inr rfl⟩)
      · cases hstep
  | codRemittance dto group now =>
      simp only [cashStep] at hstep
      split at hstep
      · obtain ⟨b, -, rfl⟩ := Option.map_eq_some_iff.mp hstep
        exact .inr (.inr ⟨rfl, .inr rfl⟩)
      · cases hstep
  | post e =>
      simp only [cashStep] at hstep
      split at hstep
      · obtain ⟨b, -, rfl⟩ := Option.map_eq_some_iff.mp hstep
        exact .inr (.inr ⟨rfl, .inr rfl⟩)
      · cases hstep
  | change books purchases =>
      simp only [cashStep] at hstep
      split at hstep
      · obtain rfl := Option.some.inj hstep
        exact .inr (.inr ⟨rfl, .inr rfl⟩)
      · cases hstep

/-- **Until it commits, a reversal changes no entry and no bill.** -/
theorem unfinished_unchanged {a : CashAction} (ha : a.unfinished = true)
    (hstep : cashStep s a = some t) : t.entries = s.entries ∧ t.purchases = s.purchases := by
  rcases cashStep_cases hstep with ⟨new, rfl⟩ | ⟨i, c, -, hsets⟩ | ⟨hdone, -⟩
  · exact ⟨rfl, rfl⟩
  · obtain ⟨c', rfl⟩ := hsets.sets
    exact ⟨rfl, rfl⟩
  · exact absurd (ha.symm.trans hdone) (by simp)

/-- Call `j` is committed. -/
def CashDesk.Done (s : CashDesk) (j : ℕ) : Prop := ∃ c, s.calls[j]? = some c ∧ c.phase = .reversed

variable {j : ℕ}

theorem Done.setCall (hdone : s.Done j) (hi : s.calls[i]? = some c) (hphase : c.phase ≠ .reversed) :
    (s.setCall i c').Done j := by
  obtain ⟨d, hj, hd⟩ := hdone
  have hne : i ≠ j := by
    rintro rfl
    obtain rfl := Option.some.inj (hi.symm.trans hj)
    exact hphase hd
  exact ⟨d, by rw [CashDesk.setCall, List.getElem?_set_ne hne, hj], hd⟩

/-- **A committed reversal is committed for good.** -/
theorem cashStep_done {a : CashAction} (hdone : s.Done j) (hstep : cashStep s a = some t) :
    t.Done j := by
  rcases cashStep_cases hstep with ⟨new, rfl⟩ | ⟨i, c, hi, hsets⟩ | ⟨-, ⟨i, c, hi, hc⟩ | hcalls⟩
  · obtain ⟨d, hj, hphase⟩ := hdone
    refine ⟨d, ?_, hphase⟩
    rw [List.getElem?_append_left (List.getElem?_eq_some_iff.mp hj).1, hj]
  · obtain ⟨c', rfl⟩ := hsets.sets
    exact Done.setCall hdone hi hsets.active
  · unfold CashDesk.commit at hc
    split at hc
    · rename_i hphase
      obtain rfl := Option.some.inj hc
      exact Done.setCall hdone hi (by simp [hphase])
    · cases hc
  · obtain ⟨d, hj, hphase⟩ := hdone
    exact ⟨d, by rw [hcalls, hj], hphase⟩

theorem commit_done {as : List CashAction} (hrun : Machine.runFrom cashStep s as = some t)
    (hmem : CashAction.commit j ∈ as) : t.Done j := by
  obtain ⟨before, after, rfl⟩ := List.append_of_mem hmem
  obtain ⟨s₁, -, hrest⟩ := Machine.runFrom_append hrun
  obtain ⟨s₂, hcommit, hafter⟩ := Machine.runFrom_cons hrest
  refine Machine.runFrom_invariant (fun _ _ _ hi hs => cashStep_done hi hs) after s₂ t ?_ hafter
  obtain ⟨c, hi, hc⟩ := Option.bind_eq_some_iff.mp hcommit
  unfold CashDesk.commit at hc
  split at hc
  · obtain rfl := Option.some.inj hc
    refine ⟨{ c with phase := .reversed, rows := [], bills := [] }, ?_, rfl⟩
    rw [CashDesk.setCall, List.getElem?_set_self (List.getElem?_eq_some_iff.mp hi).1]
  · cases hc

/-! ### The result -/

/-- What holds of a cashbook after the actions `as`. -/
structure RestoresOnce (as : List CashAction) (t : CashDesk) : Prop where
  /-- an entry is reversed at most once -/
  once : (t.entries.filterMap (·.reversesId)).Nodup
  /-- no reversal is reversed -/
  originals : ∀ r ∈ t.entries, ∀ id, r.reversesId = some id →
    ∃ x ∈ t.entries, x.id = id ∧ x.reversesId = none
  /-- the legs of a transfer are all reversed or none is -/
  pairs : ∀ x ∈ t.entries, ∀ y ∈ t.entries, x.reversesId = none → y.reversesId = none →
    x.transferGroupId ≠ none → x.transferGroupId = y.transferGroupId →
    reversed t.entries x = reversed t.entries y
  /-- a balance is what the entries that nobody reversed make it -/
  balances : ∀ acc, balanceOf acc t.entries = balanceOf acc (t.entries.filter (isLive t.entries))
  /-- a reversal that goes through leaves the balances of a cashbook without its entry or pair -/
  commits : ∀ i c t', t.calls[i]? = some c → cashStep t (.commit i) = some t' →
    ∃ orig ∈ t.entries, orig.id = c.id ∧ ∀ acc, balanceOf acc t'.entries =
      balanceOf acc (t.entries.filter (· ∉ CashbookService.legs t.books.cash orig))
  /-- what a reversal does before it goes through is seen by nobody -/
  unfinished : ∀ a t', a.unfinished = true → cashStep t a = some t' →
    t'.entries = t.entries ∧ t'.purchases = t.purchases
  /-- and one that fails never goes through -/
  failed : ∀ i c failure, t.calls[i]? = some c → c.phase = .failed failure →
    CashAction.commit i ∉ as

/-- **Reversals restore balances, each entry once and each transfer whole, in any interleaving.** -/
theorem reversals_restore (s t : CashDesk) (as : List CashAction) (h : s.Opening)
    (hrun : Machine.runFrom cashStep s as = some t) : RestoresOnce as t := by
  have hinv : CashDeskInv t :=
    Machine.runFrom_invariant (fun _ _ _ hi hs => cashStep_inv hi hs) as s t h.inv hrun
  refine ⟨hinv.once, hinv.originals, hinv.pairs, fun acc => ?_, fun i c t' hi hstep => ?_,
    fun a t' ha hstep => unfinished_unchanged ha hstep, fun i c failure hi hphase hmem => ?_⟩
  · rw [balanceOf, balanceOf, hinv.balances]
  · obtain ⟨c', hi', hc⟩ := Option.bind_eq_some_iff.mp hstep
    obtain rfl := Option.some.inj (hi.symm.trans hi')
    obtain ⟨orig, done, hcommit⟩ := commit_turns hinv hi hc
    refine ⟨orig, hcommit.holding.mem, hcommit.holding.id, fun acc => ?_⟩
    have hsame : t.entries.filter (· ∉ done) =
        t.entries.filter (· ∉ CashbookService.legs t.books.cash orig) :=
      List.filter_congr fun x _ => decide_eq_decide.mpr (not_congr hcommit.perm.mem_iff)
    rw [balanceOf, balanceOf, hcommit.turned.restores hinv.kept.nodup, hsame]
  · obtain ⟨d, hi', hdone⟩ := commit_done hrun hmem
    obtain rfl := Option.some.inj (hi.symm.trans hi')
    exact absurd (hphase.symm.trans hdone) (by simp)

/-! ### A run -/

/-- Two accounts of a shop. -/
def tillDesk : CashDesk where
  books := { cash := { accounts := [{ id := 1, code := "cash", name := "ক্যাশ", openingBalance := 500 },
    { id := 2, code := "bank", name := "ব্যাংক" }] } }

/-- 100 is transferred; two people reverse the two legs at once. -/
def bothLegs : List CashAction :=
  [.transfer { fromAccountId := 1, toAccountId := 2, amount := 100, occurredAt := some 0 } 7 0,
   .ask 0 "ভুল" 8 1, .ask 1 "ভুল" 9 1, .find 0, .find 1]

/-- The second of them waits for the first, and fails. -/
def oneWins (legs : List CashTransaction) : List CashAction :=
  bothLegs ++ [.findLegs 0 legs, .findLegs 1 legs.reverse, .insert 0, .insert 0, .commit 0, .insert 1]

theorem tillDesk_opening : tillDesk.Opening := ⟨rfl, rfl⟩

/-- The transfer is undone once, on both legs. -/
theorem reversals_restore_oneWins : ∃ t legs, Machine.runFrom cashStep tillDesk (oneWins legs) = some t ∧
    t.entries.length = 4 ∧ (t.calls.map (·.phase)) = [.reversed, .failed alreadyReversed] ∧
    RestoresOnce (oneWins legs) t := by
  have hruns : (Machine.runFrom cashStep tillDesk bothLegs).any (fun s =>
      (Machine.runFrom cashStep tillDesk (oneWins s.entries)).any fun t =>
        decide (t.entries.length = 4) &&
          decide ((t.calls.map (·.phase)) = [.reversed, .failed alreadyReversed])) = true := by
    decide +kernel
  obtain ⟨s, -, hs⟩ := (Option.any_eq_true _ _).mp hruns
  obtain ⟨t, ht, hcond⟩ := (Option.any_eq_true _ _).mp hs
  simp only [Bool.and_eq_true, decide_eq_true_eq] at hcond
  exact ⟨t, s.entries, ht, hcond.1, hcond.2, reversals_restore tillDesk t _ tillDesk_opening ht⟩

end BookHouse
