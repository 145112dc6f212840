/-
The day close is the ledger cut at Dhaka midnights, where the database's Dhaka dates are the
shop's.

What an account holds at a midnight and what its entries move on the day make what it holds
at the next one (`heldAt_next`), so the running fold is at every row what the ledger holds
there (`rollDays_held`).  The fold takes its sums from under a day's text: they are the day's
when the key of each entry is the text of its day, which is where the offset of the time zone
data and the width of a year come in.
-/
import BookHouse.Finance.DayClose
import BookHouse.Lib.Grouping
import BookHouse.Proofs.DhakaTime
import BookHouse.Proofs.Money

namespace BookHouse

open CashbookService

variable {zone : Instant → ℤ} {b : Cashbook} {acc : Option AccountId}

/-! ### The ledger at an instant -/

/-- What the chosen accounts hold before an instant: their opening balances, all IN, less OUT. -/
def heldAt (b : Cashbook) (accountId : Option AccountId) (t : Instant) : Money :=
  ((b.accounts.filter (isChosen accountId ·.id)).map (·.openingBalance)).sum +
    ((b.entries.filter fun e =>
      isChosen accountId e.accountId && e.occurredAt < t).map (·.signed)).sum

/-- What goes one way on a day. -/
def dayAmount (b : Cashbook) (accountId : Option AccountId) (direction : CashDirection) (d : ℤ) :
    Money :=
  ((b.entries.filter fun e => isChosen accountId e.accountId &&
    (dayRange d).holds e.occurredAt && e.direction = direction).map (·.amount)).sum

/-- What the tables hold by their keys and column types. -/
structure Cashbook.Stored (b : Cashbook) : Prop where
  ids : (b.accounts.map (·.id)).Nodup
  accounts : ∀ e ∈ b.entries, e.accountId ∈ b.accounts.map (·.id)
  openings : ∀ a ∈ b.accounts, Paisa a.openingBalance
  amounts : ∀ e ∈ b.entries, Paisa e.amount

theorem signed_paisa {e : CashTransaction} (h : Paisa e.amount) : Paisa e.signed := by
  unfold CashTransaction.signed
  split
  · exact h
  · exact h.neg

theorem heldAt_paisa (h : b.Stored) (t : Instant) : Paisa (heldAt b acc t) := by
  refine Rounding.HasPlaces.add (Rounding.HasPlaces.sum fun x hx => ?_)
    (Rounding.HasPlaces.sum fun x hx => ?_)
  · obtain ⟨a, ha, rfl⟩ := List.mem_map.mp hx
    exact h.openings a (List.mem_filter.mp ha).1
  · obtain ⟨e, he, rfl⟩ := List.mem_map.mp hx
    exact signed_paisa (h.amounts e (List.mem_filter.mp he).1)

/-- Every entry has its account, so the join drops none. -/
theorem openingBefore_eq (h : b.Stored) (t : Instant) : openingBefore b t acc = heldAt b acc t := by
  have hjoin : ∀ e ∈ b.entries, b.accounts.any (fun a => a.id = e.accountId && isChosen acc a.id) =
      isChosen acc e.accountId := by
    intro e he
    obtain ⟨a, ha, hid⟩ := List.mem_map.mp (h.accounts e he)
    rw [Bool.eq_iff_iff, List.any_eq_true]
    constructor
    · rintro ⟨a', -, ha'⟩
      rw [Bool.and_eq_true, decide_eq_true_eq] at ha'
      exact ha'.1 ▸ ha'.2
    · intro hchosen
      exact ⟨a, ha, by rw [hid, hchosen]; simp⟩
  have hfilter : b.entries.filter (fun t' =>
      b.accounts.any (fun a => a.id = t'.accountId && isChosen acc a.id) && t'.occurredAt < t) =
      b.entries.filter fun e => isChosen acc e.accountId && e.occurredAt < t := by
    refine List.filter_congr fun e he => ?_
    rw [hjoin e he]
  unfold openingBefore heldAt
  rw [hfilter]

/-- From one midnight to the next, by what the entries of the day move. -/
theorem heldAt_next (d : ℤ) : heldAt b acc (dhakaMidnight (d + 1)) =
    heldAt b acc (dhakaMidnight d) + dayAmount b acc .in_ d - dayAmount b acc .out d := by
  unfold heldAt dayAmount
  suffices h : ∀ es : List CashTransaction,
      ((es.filter fun e => isChosen acc e.accountId &&
        e.occurredAt < dhakaMidnight (d + 1)).map (·.signed)).sum =
      ((es.filter fun e => isChosen acc e.accountId &&
        e.occurredAt < dhakaMidnight d).map (·.signed)).sum +
      ((es.filter fun e => isChosen acc e.accountId && (dayRange d).holds e.occurredAt &&
        e.direction = .in_).map (·.amount)).sum -
      ((es.filter fun e => isChosen acc e.accountId && (dayRange d).holds e.occurredAt &&
        e.direction = .out).map (·.amount)).sum by
    rw [h]
    ring
  intro es
  induction es with
  | nil => simp
  | cons e es ih =>
      have hnext : e.occurredAt < dhakaMidnight (d + 1) ↔ dhakaDay e.occurredAt ≤ d := by
        rw [← not_le, dhakaMidnight_le]
        omega
      have hbefore : e.occurredAt < dhakaMidnight d ↔ dhakaDay e.occurredAt < d := by
        rw [← not_le, dhakaMidnight_le]
        omega
      have hon : (dayRange d).holds e.occurredAt = decide (dhakaDay e.occurredAt = d) := by
        rw [Bool.eq_iff_iff, dayRange_holds, decide_eq_true_eq]
      simp only [List.filter_cons, hnext, hbefore, hon] at ih ⊢
      cases hc : isChosen acc e.accountId with
      | false => simpa using ih
      | true =>
          rcases lt_trichotomy (dhakaDay e.occurredAt) d with hlt | heq | hgt
          · have hle : dhakaDay e.occurredAt ≤ d := hlt.le
            have hne : dhakaDay e.occurredAt ≠ d := hlt.ne
            simp [hlt, hle, hne] at ih ⊢
            linarith
          · cases hdir : e.direction <;> simp [heq, CashTransaction.signed, hdir] at ih ⊢ <;> linarith
          · have hnle : ¬ dhakaDay e.occurredAt ≤ d := hgt.not_ge
            have hnlt : ¬ dhakaDay e.occurredAt < d := hgt.not_gt
            have hne : dhakaDay e.occurredAt ≠ d := hgt.ne'
            simpa [hnle, hnlt, hne] using ih

/-! ### The fold -/

section fold

variable {sums : List (JsString × DayTotals)} {days : List JsString} {running : Money}

theorem rollDays_length (days : List JsString) (running : Money) :
    (rollDays sums days running).length = days.length := by
  induction days generalizing running with
  | nil => rfl
  | cons day days ih => exact congrArg (· + 1) (ih _)

/-- A row of the fold, whatever was running. -/
structure Rolled (sums : List (JsString × DayTotals)) (row : DayCloseRow) : Prop where
  in_ : row.in_ = (totalsOn sums row.day).in_
  out : row.out = (totalsOn sums row.day).out
  closing : row.closing = row.opening + row.in_ - row.out

theorem rollDays_row {i : ℕ} {row : DayCloseRow} (h : (rollDays sums days running)[i]? = some row) :
    days[i]? = some row.day ∧ Rolled sums row := by
  induction days generalizing running i with
  | nil => simp [rollDays] at h
  | cons day days ih =>
      cases i with
      | zero =>
          obtain rfl := Option.some.inj h
          exact ⟨rfl, rfl, rfl, rfl⟩
      | succ i => exact ih h

/-- Each day opens with what the day before closed with. -/
theorem rollDays_chain {i : ℕ} {row next : DayCloseRow}
    (h : (rollDays sums days running)[i]? = some row)
    (hnext : (rollDays sums days running)[i + 1]? = some next) : next.opening = row.closing := by
  induction days generalizing running i with
  | nil => simp [rollDays] at h
  | cons day days ih =>
      cases i with
      | zero =>
          obtain rfl := Option.some.inj h
          cases days with
          | nil => simp [rollDays] at hnext
          | cons day' days =>
              obtain rfl := Option.some.inj hnext
              rfl
      | succ i => exact ih h hnext

/-- Where each day's sums are what a quantity changes by, the fold follows the quantity. -/
theorem rollDays_held (held : ℕ → Money) (hrun : running = held 0)
    (hstep : ∀ (i : ℕ) day, days[i]? = some day →
      held (i + 1) = held i + (totalsOn sums day).in_ - (totalsOn sums day).out)
    {i : ℕ} {row : DayCloseRow} (h : (rollDays sums days running)[i]? = some row) :
    row.opening = held i ∧ row.closing = held (i + 1) := by
  induction days generalizing running held i with
  | nil => simp [rollDays] at h
  | cons day days ih =>
      have hfirst := hstep 0 day rfl
      cases i with
      | zero =>
          obtain rfl := Option.some.inj h
          exact ⟨hrun, by rw [hfirst, ← hrun]⟩
      | succ i =>
          exact ih (fun j => held (j + 1)) (by rw [hfirst, ← hrun]) (fun j day' hd => hstep (j + 1) day' hd) h

end fold

/-! ### What is filed under a day -/

/-- What goes one way and is filed under a day's text. -/
def keyAmount (zone : Instant → ℤ) (b : Cashbook) (r : Range) (accountId : Option AccountId)
    (direction : CashDirection) (day : JsString) : Money :=
  ((b.entries.filter fun e => isChosen accountId e.accountId && r.holds e.occurredAt &&
    dayKey zone e.occurredAt = day && e.direction = direction).map (·.amount)).sum

theorem totalsOn_perDay (r : Range) (day : JsString) : totalsOn (perDay zone b r acc) day =
    { in_ := keyAmount zone b r acc .in_ day, out := keyAmount zone b r acc .out day } := by
  have hgroup : ∀ direction, keyAmount zone b r acc direction day =
      ((((b.entries.filter fun t => r.holds t.occurredAt && isChosen acc t.accountId).filter fun t =>
        dayKey zone t.occurredAt = day).filter (·.direction = direction)).map (·.amount)).sum := by
    intro direction
    rw [keyAmount, List.filter_filter, List.filter_filter]
    refine congrArg (fun l => (List.map _ l).sum) (List.filter_congr fun e _ => ?_)
    simp only [Bool.and_comm, Bool.and_left_comm, Bool.and_assoc]
  unfold totalsOn perDay
  simp only [List.find?_map]
  cases hfind : (List.find? _ _ : Option JsString) with
  | some key =>
      obtain rfl : key = day := by simpa using List.find?_some hfind
      rw [hgroup, hgroup]
      rfl
  | none =>
      have hnone : (b.entries.filter fun t => r.holds t.occurredAt && isChosen acc t.accountId).filter
          (fun t => dayKey zone t.occurredAt = day) = [] := by
        refine List.filter_eq_nil_iff.mpr fun e he hk => ?_
        refine List.find?_eq_none.mp hfind day (List.mem_dedup.mpr (List.mem_map.mpr ⟨e, he, ?_⟩)) ?_
        · exact of_decide_eq_true hk
        · simp
      rw [hgroup, hgroup, hnone]
      rfl

/-! ### One account and all of them -/

theorem isChosen_some {id id' : AccountId} : isChosen (some id) id' = decide (id' = id) := by
  simp [isChosen, eq_comm]

/-- What the entries before an instant move, each under its account. -/
def movesBefore (b : Cashbook) (t : Instant) : List (AccountId × Money) :=
  (b.entries.filter (·.occurredAt < t)).map fun e => (e.accountId, e.signed)

theorem heldAt_one (h : b.Stored) {a : CashAccount} (ha : a ∈ b.accounts) (t : Instant) :
    heldAt b (some a.id) t = a.openingBalance + Grouping.total a.id (movesBefore b t) := by
  have hnd : ((b.accounts.map fun a => (a.id, a.openingBalance)).map Prod.fst).Nodup := by
    rw [List.map_map]
    exact h.ids
  have hopening := Grouping.total_of_mem hnd (List.mem_map_of_mem ha)
  have hmoves : Grouping.total a.id (movesBefore b t) = ((b.entries.filter fun e =>
      isChosen (some a.id) e.accountId && e.occurredAt < t).map (·.signed)).sum := by
    simp only [isChosen_some]
    rw [Grouping.total, movesBefore, List.filter_map, List.map_map, List.filter_filter]
    rfl
  rw [heldAt, ← hmoves]
  refine congrArg (· + _) (Eq.trans ?_ hopening)
  simp only [isChosen_some]
  rw [Grouping.total, List.filter_map, List.map_map]
  rfl

/-- What the chosen accounts hold is what each of them holds, added up. -/
theorem sum_heldAt (h : b.Stored) (t : Instant) :
    ((b.accounts.filter (isChosen acc ·.id)).map fun a => heldAt b (some a.id) t).sum =
      heldAt b acc t := by
  have hnd : ((b.accounts.filter (isChosen acc ·.id)).map (·.id)).Nodup :=
    h.ids.sublist ((List.filter_sublist).map _)
  have hmoves := Grouping.sum_totals (movesBefore b t) hnd
  rw [List.map_map] at hmoves
  have hchosen : ((movesBefore b t).filter fun m =>
      m.1 ∈ (b.accounts.filter (isChosen acc ·.id)).map (·.id)).map Prod.snd =
      (b.entries.filter fun e => isChosen acc e.accountId && e.occurredAt < t).map (·.signed) := by
    rw [movesBefore, List.filter_map, List.map_map, List.filter_filter]
    refine congrArg _ (List.filter_congr fun e he => congrArg (· && _) ?_)
    rw [Bool.eq_iff_iff, Function.comp_apply, decide_eq_true_eq]
    constructor
    · intro hmem
      obtain ⟨a, ha, hid⟩ := List.mem_map.mp hmem
      have hc := (List.mem_filter.mp ha).2
      rwa [hid] at hc
    · intro hc
      obtain ⟨a, ha, hid⟩ := List.mem_map.mp (h.accounts e he)
      exact List.mem_map.mpr ⟨a, List.mem_filter.mpr ⟨ha, by rw [hid]; exact hc⟩, hid⟩
  rw [hchosen] at hmoves
  rw [heldAt, ← hmoves, ← List.sum_map_add]
  refine congrArg List.sum (List.map_congr_left fun a ha => ?_)
  exact heldAt_one h (List.mem_filter.mp ha).1 t

/-- With nothing after it, an instant sees the balances as they are. -/
theorem heldAt_latest (h : b.Stored) {a : CashAccount} (ha : a ∈ b.accounts) {t : Instant}
    (hlatest : ∀ e ∈ b.entries, e.occurredAt < t) :
    heldAt b (some a.id) t = balanceOf a b.entries := by
  have hall : b.entries.filter (·.occurredAt < t) = b.entries :=
    List.filter_eq_self.mpr fun e he => decide_eq_true (hlatest e he)
  rw [heldAt_one h ha, balanceOf, movedOn, Grouping.total, movesBefore, hall, List.filter_map,
    List.map_map]
  rfl

/-! ### The claim -/

/-- Two texts that name the first and the last of at most 400 days. -/
structure DaySpan (firstIso lastIso : JsString) (first last : ℤ) : Prop where
  start : DhakaTime.dayRange firstIso = .ok (dayRange first)
  end_ : DhakaTime.dayRange lastIso = .ok (dayRange last)
  /-- as texts are ordered -/
  ordered : ¬ lastIso < firstIso
  short : last - first < 400

/-- The rows of a span are the ledger cut at its midnights. -/
structure DailyCut (b : Cashbook) (acc : Option AccountId) (first last : ℤ)
    (rows : List DayCloseRow) : Prop where
  days : rows.length = (last + 1 - first).toNat
  opening : ∀ (i : ℕ) row, rows[i]? = some row → row.opening = heldAt b acc (dhakaMidnight (first + i))
  closing : ∀ (i : ℕ) row, rows[i]? = some row →
    row.closing = heldAt b acc (dhakaMidnight (first + i + 1))
  chained : ∀ (i : ℕ) row next, rows[i]? = some row → rows[i + 1]? = some next →
    next.opening = row.closing
  /-- an entry of the span is on exactly one of its days, … -/
  once : ∀ e ∈ b.entries, (daySpan first last).holds e.occurredAt →
    ∃! i : ℕ, i < rows.length ∧ (dayRange (first + i)).holds e.occurredAt
  /-- … and a day counts the entries on it -/
  counted : ∀ (i : ℕ) row, rows[i]? = some row →
    row.in_ = dayAmount b acc .in_ (first + i) ∧ row.out = dayAmount b acc .out (first + i)

/-- The close of a day is the ledger cut at its two midnights, account by account. -/
structure CloseCut (b : Cashbook) (acc : Option AccountId) (d : ℤ) (close : DayClose) : Prop where
  accounts : close.accounts.map (·.account) = b.accounts.filter (isChosen acc ·.id)
  each : ∀ c ∈ close.accounts, c.row.opening = heldAt b (some c.account.id) (dhakaMidnight d) ∧
    c.row.closing = heldAt b (some c.account.id) (dhakaMidnight (d + 1))
  total : close.closing = (close.accounts.map (·.row.closing)).sum
  overall : close.opening = heldAt b acc (dhakaMidnight d) ∧
    close.closing = heldAt b acc (dhakaMidnight (d + 1))
  latest : (∀ e ∈ b.entries, e.occurredAt < dhakaMidnight (d + 1)) →
    (∀ c ∈ close.accounts, c.row.closing = balanceOf c.account b.entries) ∧
    close.closing = ((b.accounts.filter (isChosen acc ·.id)).map (balanceOf · b.entries)).sum

/-- What is shown of a span and of each of its days, for one or all accounts. -/
structure CutAtMidnights (zone : Instant → ℤ) (purchases : List Purchase) (books : Books)
    (firstIso lastIso : JsString) (first last : ℤ) : Prop where
  daily : ∀ acc, ∃ rows, daily zone books.cash firstIso lastIso acc = .ok rows ∧
    DailyCut books.cash acc first last rows
  dayClose : ∀ acc, (∀ id, acc = some id → id ∈ books.cash.accounts.map (·.id)) →
    ∀ date d, DhakaTime.dayRange date = .ok (dayRange d) → first ≤ d → d ≤ last →
      ∃ close, dayClose zone purchases books date acc = .ok close ∧
        CloseCut books.cash acc d close

theorem keyAmount_eq {r : Range} {day : JsString} {d : ℤ} (direction : CashDirection)
    (h : ∀ e ∈ b.entries, (r.holds e.occurredAt = true ∧ dayKey zone e.occurredAt = day) ↔
      (dayRange d).holds e.occurredAt = true) :
    keyAmount zone b r acc direction day = dayAmount b acc direction d := by
  unfold keyAmount dayAmount
  refine congrArg (fun l => (List.map _ l).sum) (List.filter_congr fun e he => ?_)
  have hday : (r.holds e.occurredAt && decide (dayKey zone e.occurredAt = day)) =
      (dayRange d).holds e.occurredAt := by
    rw [Bool.eq_iff_iff, Bool.and_eq_true, decide_eq_true_eq, h e he]
  rw [← hday, ← Bool.and_assoc]

/-! ### A span, day by day -/

section span

variable {firstIso lastIso : JsString} {first last : ℤ}

/-- The texts of a span's days. -/
def spanTexts (first last : ℤ) : List JsString :=
  (daysFrom first (last + 1 - first).toNat).map DhakaTime.dayText

def spanRows (zone : Instant → ℤ) (b : Cashbook) (acc : Option AccountId) (first last : ℤ) :
    List DayCloseRow :=
  rollDays (perDay zone b (daySpan first last) acc) (spanTexts first last)
    (openingBefore b (dhakaMidnight first) acc)

theorem spanRows_length :
    (spanRows zone b acc first last).length = (last + 1 - first).toNat := by
  rw [spanRows, rollDays_length, spanTexts, List.length_map, daysFrom, List.length_map,
    List.length_range]

theorem daily_eq (hspan : DaySpan firstIso lastIso first last) :
    daily zone b firstIso lastIso acc = .ok (spanRows zone b acc first last) := by
  have hrange : DhakaTime.daySpan firstIso lastIso = .ok (daySpan first last) := by
    unfold DhakaTime.daySpan
    rw [hspan.start, hspan.end_]
    rfl
  have heach : DhakaTime.eachDay firstIso lastIso = .ok (spanTexts first last) := by
    have hshort := hspan.short
    unfold DhakaTime.eachDay
    rw [hspan.start, hspan.end_]
    show Except.ok (DhakaTime.daysUpTo (dhakaMidnight last) 400 (dhakaMidnight first)) = _
    rw [daysUpTo_eq, show min 400 (last + 1 - first).toNat = (last + 1 - first).toNat by omega]
    rfl
  unfold daily
  rw [if_neg hspan.ordered, hrange, heach]
  rfl

theorem day_at {i : ℕ} {day : JsString} (h : (spanTexts first last)[i]? = some day) :
    i < (last + 1 - first).toNat ∧ day = DhakaTime.dayText (first + i) := by
  rw [spanTexts, daysFrom, List.map_map, List.getElem?_map] at h
  obtain ⟨j, hj, rfl⟩ := Option.map_eq_some_iff.mp h
  obtain ⟨hlt, rfl⟩ := List.getElem?_eq_some_iff.mp hj
  rw [List.length_range] at hlt
  exact ⟨hlt, by simp⟩

/-- Entries are filed under their own days. -/
theorem filed_on (hkey : ∀ e ∈ b.entries, (daySpan first last).holds e.occurredAt = true →
      dayKey zone e.occurredAt = DhakaTime.dhakaDay e.occurredAt)
    {d : ℤ} (hfirst : first ≤ d) (hlast : d ≤ last) (direction : CashDirection) :
    keyAmount zone b (daySpan first last) acc direction (DhakaTime.dayText d) =
      dayAmount b acc direction d := by
  refine keyAmount_eq direction fun e he => ?_
  rw [dayRange_holds]
  constructor
  · rintro ⟨hin, hfiled⟩
    rw [hkey e he hin, dhakaDay_eq] at hfiled
    exact dayText_injective hfiled
  · intro hday
    have hin : (daySpan first last).holds e.occurredAt = true := by
      rw [daySpan_holds, hday]
      exact ⟨hfirst, hlast⟩
    exact ⟨hin, by rw [hkey e he hin, dhakaDay_eq, hday]⟩

theorem daily_cut (hspan : DaySpan firstIso lastIso first last) (hst : b.Stored)
    (hkey : ∀ e ∈ b.entries, (daySpan first last).holds e.occurredAt = true →
      dayKey zone e.occurredAt = DhakaTime.dhakaDay e.occurredAt) :
    ∃ rows, daily zone b firstIso lastIso acc = .ok rows ∧ DailyCut b acc first last rows := by
  refine ⟨_, daily_eq hspan, ?_⟩
  have hsums : ∀ (i : ℕ) day, (spanTexts first last)[i]? = some day →
      totalsOn (perDay zone b (daySpan first last) acc) day =
        { in_ := dayAmount b acc .in_ (first + i), out := dayAmount b acc .out (first + i) } := by
    intro i day hday
    obtain ⟨hi, rfl⟩ := day_at hday
    rw [totalsOn_perDay, filed_on hkey (by omega) (by omega), filed_on hkey (by omega) (by omega)]
  have hheld : ∀ (i : ℕ) (row : DayCloseRow), (spanRows zone b acc first last)[i]? = some row →
      row.opening = heldAt b acc (dhakaMidnight (first + i)) ∧
        row.closing = heldAt b acc (dhakaMidnight (first + (i + 1 : ℕ))) := by
    intro i row hrow
    refine rollDays_held (fun i => heldAt b acc (dhakaMidnight (first + i))) ?_ (fun i day hday => ?_)
      hrow
    · rw [openingBefore_eq hst, Nat.cast_zero, add_zero]
    · rw [hsums i day hday, Nat.cast_add, Nat.cast_one, ← add_assoc]
      exact heldAt_next (first + i)
  constructor
  case days => exact spanRows_length
  case opening => exact fun i row hrow => (hheld i row hrow).1
  case closing =>
    intro i row hrow
    rw [(hheld i row hrow).2, Nat.cast_add, Nat.cast_one, ← add_assoc]
  case chained => exact fun i row next hrow hnext => rollDays_chain hrow hnext
  case once =>
    intro e he hin
    obtain ⟨hfirst, hlast⟩ := daySpan_holds.mp hin
    have hlen : (spanRows zone b acc first last).length = (last + 1 - first).toNat := spanRows_length
    refine ⟨(dhakaDay e.occurredAt - first).toNat, ⟨by omega, dayRange_holds.mpr (by omega)⟩, ?_⟩
    rintro j ⟨-, hj⟩
    have := dayRange_holds.mp hj
    omega
  case counted =>
    intro i row hrow
    obtain ⟨hday, hrolled⟩ := rollDays_row hrow
    rw [hrolled.in_, hrolled.out, hsums i _ hday]
    exact ⟨rfl, rfl⟩

end span

/-! ### A day, account by account -/

section day

variable {date : JsString} {d : ℤ}

/-- The row of an account on a day, as the ledger has it. -/
def rowOn (b : Cashbook) (id : AccountId) (date : JsString) (d : ℤ) : DayCloseRow :=
  { day := date, opening := heldAt b (some id) (dhakaMidnight d),
    in_ := dayAmount b (some id) .in_ d, out := dayAmount b (some id) .out d,
    closing := heldAt b (some id) (dhakaMidnight (d + 1)) }

theorem closeAccount_eq (hst : b.Stored)
    (hkey : ∀ e ∈ b.entries, (dayRange d).holds e.occurredAt = true →
      dayKey zone e.occurredAt = date) (a : CashAccount) :
    closeAccount zone b date (dayRange d) a = [{ account := a, row := rowOn b a.id date d }] := by
  have hfiled : ∀ direction, keyAmount zone b (dayRange d) (some a.id) direction date =
      dayAmount b (some a.id) direction d := fun direction =>
    keyAmount_eq direction fun e he => ⟨fun h => h.1, fun h => ⟨h, hkey e he h⟩⟩
  unfold closeAccount rowOn
  simp only [rollDays, totalsOn_perDay, hfiled, openingBefore_eq hst, heldAt_next]
  rfl

theorem dayClose_ok (zone : Instant → ℤ) (purchases : List Purchase) {books : Books}
    (hdate : DhakaTime.dayRange date = .ok (dayRange d))
    (hknown : ∀ id, acc = some id → id ∈ books.cash.accounts.map (·.id)) :
    ∃ close, dayClose zone purchases books date acc = .ok close ∧
      close.accounts = (books.cash.accounts.filter (isChosen acc ·.id)).flatMap
        (closeAccount zone books.cash date (dayRange d)) ∧
      close.opening = round2 (close.accounts.map (·.row.opening)).sum ∧
      close.closing = round2 (close.accounts.map (·.row.closing)).sum := by
  unfold dayClose
  rw [hdate]
  cases acc with
  | none => exact ⟨_, rfl, rfl, rfl, rfl⟩
  | some id =>
      obtain ⟨a, ha, hid⟩ := List.mem_map.mp (hknown id rfl)
      have hmem : a ∈ books.cash.accounts.filter (isChosen (some id) ·.id) := by
        rw [List.mem_filter, isChosen_some, decide_eq_true_eq]
        exact ⟨ha, hid⟩
      cases hfound : books.cash.accounts.filter (isChosen (some id) ·.id) with
      | nil => rw [hfound] at hmem; cases hmem
      | cons a' rest =>
          simp only [Except.mapError, bind, Except.bind]
          exact ⟨_, rfl, rfl, rfl, rfl⟩

theorem dayClose_cut (purchases : List Purchase) {books : Books} (hst : books.cash.Stored)
    (hdate : DhakaTime.dayRange date = .ok (dayRange d))
    (hknown : ∀ id, acc = some id → id ∈ books.cash.accounts.map (·.id))
    (hkey : ∀ e ∈ books.cash.entries, (dayRange d).holds e.occurredAt = true →
      dayKey zone e.occurredAt = date) :
    ∃ close, dayClose zone purchases books date acc = .ok close ∧ CloseCut books.cash acc d close := by
  have haccounts : (books.cash.accounts.filter (isChosen acc ·.id)).flatMap
      (closeAccount zone books.cash date (dayRange d)) =
      (books.cash.accounts.filter (isChosen acc ·.id)).map fun a =>
        { account := a, row := rowOn books.cash a.id date d } := by
    rw [List.map_eq_flatMap]
    exact congrArg (List.flatMap · _) (funext (closeAccount_eq hst hkey))
  obtain ⟨close, hok, hrows, hopening, hclosing⟩ :=
    dayClose_ok zone purchases hdate hknown
  rw [haccounts] at hrows
  have hsum : ∀ (column : DayCloseRow → Money) (t : Instant),
      (∀ a : CashAccount, column (rowOn books.cash a.id date d) = heldAt books.cash (some a.id) t) →
      (close.accounts.map (column ·.row)).sum = heldAt books.cash acc t := by
    intro column t hcolumn
    rw [hrows, List.map_map, ← sum_heldAt hst t]
    exact congrArg List.sum (List.map_congr_left fun a _ => hcolumn a)
  have hopen : close.opening = heldAt books.cash acc (dhakaMidnight d) := by
    rw [hopening, hsum (·.opening) _ fun _ => rfl, round2_of_paisa (heldAt_paisa hst _)]
  have hclose : close.closing = heldAt books.cash acc (dhakaMidnight (d + 1)) := by
    rw [hclosing, hsum (·.closing) _ fun _ => rfl, round2_of_paisa (heldAt_paisa hst _)]
  refine ⟨close, hok, ?_⟩
  constructor
  case accounts =>
    rw [hrows, List.map_map]
    exact List.map_id _
  case each =>
    intro c hc
    obtain ⟨a, -, rfl⟩ := List.mem_map.mp (hrows ▸ hc)
    exact ⟨rfl, rfl⟩
  case total => rw [hclose, hsum (·.closing) _ fun _ => rfl]
  case overall => exact ⟨hopen, hclose⟩
  case latest =>
    intro hlatest
    constructor
    · intro c hc
      obtain ⟨a, ha, rfl⟩ := List.mem_map.mp (hrows ▸ hc)
      exact heldAt_latest hst (List.mem_filter.mp ha).1 hlatest
    · rw [hclose, ← sum_heldAt hst]
      exact congrArg List.sum (List.map_congr_left fun a ha =>
        heldAt_latest hst (List.mem_filter.mp ha).1 hlatest)

end day

/-! ### Exactly when -/

section exact

variable {firstIso lastIso : JsString} {first last : ℤ}

/-- A day that has an entry under its own text is asked for by that text. -/
theorem asked_by {date : JsString} {d : ℤ} {t : Instant}
    (hdate : DhakaTime.dayRange date = .ok (dayRange d))
    (hfiled : dayKey zone t = DhakaTime.dayText d) : date = DhakaTime.dayText d := by
  obtain ⟨d', hd', rfl⟩ := dayRange_spec hdate
  have hsame : dhakaMidnight d = dhakaMidnight d' := congrArg Range.start hd'
  obtain rfl : d = d' := by rw [← dhakaDay_midnight d, hsame, dhakaDay_midnight]
  exact isoText_of_padded hfiled

theorem cut_of_filed (hspan : DaySpan firstIso lastIso first last) (purchases : List Purchase)
    {books : Books} (hst : books.cash.Stored)
    (hkey : ∀ e ∈ books.cash.entries, (daySpan first last).holds e.occurredAt = true →
      dayKey zone e.occurredAt = DhakaTime.dhakaDay e.occurredAt) :
    CutAtMidnights zone purchases books firstIso lastIso first last := by
  refine ⟨fun acc => daily_cut hspan hst hkey, fun acc hknown date d hdate hfirst hlast => ?_⟩
  refine dayClose_cut purchases hst hdate hknown fun e he hon => ?_
  have hday := dayRange_holds.mp hon
  have hfiled : dayKey zone e.occurredAt = DhakaTime.dayText d := by
    rw [hkey e he (daySpan_holds.mpr (by omega)), dhakaDay_eq, hday]
  rw [hfiled, asked_by hdate hfiled]

/-- A ledger of one account and one entry. -/
def oneEntry (t : Instant) : Books where
  cash :=
    { accounts := [{ id := 0, code := "cash", name := "ক্যাশ" }]
      entries := [{ id := 0, accountId := 0, direction := .in_, kind := .manual, amount := 500,
                    memo := "জমা", occurredAt := t }] }

theorem oneEntry_stored (t : Instant) : (oneEntry t).cash.Stored where
  ids := by simp [oneEntry]
  accounts := by simp [oneEntry]
  openings := by
    intro a ha
    obtain rfl := List.mem_singleton.mp ha
    exact Rounding.HasPlaces.zero
  amounts := by
    intro e he
    obtain rfl := List.mem_singleton.mp he
    exact Rounding.HasPlaces.of_int 500

/-- An entry that is not filed under its day is missing from it. -/
theorem not_cut_of_misfiled (hspan : DaySpan firstIso lastIso first last) {t : Instant}
    (hin : (daySpan first last).holds t = true) (hkey : dayKey zone t ≠ DhakaTime.dhakaDay t) :
    ¬ CutAtMidnights zone [] (oneEntry t) firstIso lastIso first last := by
  intro hcut
  obtain ⟨rows, hrows, hdaily⟩ := hcut.daily none
  rw [daily_eq hspan] at hrows
  obtain rfl := Except.ok.inj hrows
  obtain ⟨hfirst, hlast⟩ := daySpan_holds.mp hin
  obtain ⟨i, hi⟩ : ∃ i : ℕ, first + i = dhakaDay t := ⟨(dhakaDay t - first).toNat, by omega⟩
  have hlt : i < (spanRows zone (oneEntry t).cash none first last).length := by
    rw [spanRows_length]
    omega
  have hrow := List.getElem?_eq_getElem hlt
  obtain ⟨hday, hrolled⟩ := rollDays_row hrow
  have hkeyed : ∀ direction, keyAmount zone (oneEntry t).cash (daySpan first last) none direction
      (DhakaTime.dayText (first + i)) = 0 := by
    intro direction
    have hne : dayKey zone t ≠ DhakaTime.dayText (dhakaDay t) := hkey
    simp [keyAmount, oneEntry, hi, hne]
  have hin_ := hrolled.in_
  rw [(day_at hday).2, totalsOn_perDay, hkeyed] at hin_
  have hcounted := (hdaily.counted i _ hrow).1
  rw [hin_, hi] at hcounted
  have hamount : dayAmount (oneEntry t).cash none .in_ (dhakaDay t) = 500 := by
    simp [dayAmount, oneEntry, isChosen, dayRange_holds.mpr rfl]
  rw [hamount] at hcounted
  norm_num at hcounted

/--
For the instants at which there may be entries: whatever the accounts and the entries are, the
rows of a span and the closes of its days are the ledger cut at Dhaka midnights, exactly if
the database's date of every such instant in the span is written as the shop writes its day.
-/
theorem dayClose_cuts (zone : Instant → ℤ) (times : Set Instant)
    (hspan : DaySpan firstIso lastIso first last) :
    (∀ purchases books, books.cash.Stored → (∀ e ∈ books.cash.entries, e.occurredAt ∈ times) →
      CutAtMidnights zone purchases books firstIso lastIso first last) ↔
    ∀ t ∈ times, (daySpan first last).holds t = true → dayKey zone t = DhakaTime.dhakaDay t := by
  constructor
  · intro hcut t ht hin
    by_contra hkey
    refine not_cut_of_misfiled hspan hin hkey (hcut [] (oneEntry t) (oneEntry_stored t) ?_)
    intro e he
    obtain rfl := List.mem_singleton.mp he
    exact ht
  · intro hkey purchases books hst htimes
    exact cut_of_filed hspan purchases hst fun e he hin => hkey _ (htimes e he) hin

end exact

/-- The offset of Asia/Dhaka in the time zone data since 1951: an hour more from 23:00 on 19
June 2009 until the end of that year. -/
def dhakaZone (t : Instant) : ℤ :=
  if 1245430800000 ≤ t ∧ t < 1262278800000 then 7 * 60 * 60 * 1000 else 6 * 60 * 60 * 1000

/-- 23:30 on 29 September 2026 is still that day. -/
theorem dayClose_cuts_september : CutAtMidnights dhakaZone [] (oneEntry 1790703000000)
    (js "2026-09-29") (js "2026-10-02") 20725 20728 := by
  refine (dayClose_cuts dhakaZone {1790703000000} ?_).mpr ?_ [] _ (oneEntry_stored _) ?_
  · exact ⟨by decide +kernel, by decide +kernel, by decide +kernel, by decide⟩
  · intro t ht _
    obtain rfl := Set.mem_singleton_iff.mp ht
    decide +kernel
  · intro e he
    obtain rfl := List.mem_singleton.mp he
    exact Set.mem_singleton _

/-- 23:30 on 1 July 2009 at +06:00 is past midnight in the time zone data, so the money of that
day is in the row of the next. -/
theorem dayClose_misplaces_july :
    DaySpan (js "2009-07-01") (js "2009-07-02") 14426 14427 ∧
    (oneEntry 1246469400000).cash.Stored ∧
    dhakaDay 1246469400000 = 14426 ∧
    daily dhakaZone (oneEntry 1246469400000).cash (js "2009-07-01") (js "2009-07-02") none = .ok
      [{ day := js "2009-07-01", opening := 0, in_ := 0, out := 0, closing := 0 },
       { day := js "2009-07-02", opening := 0, in_ := 500, out := 0, closing := 500 }] ∧
    heldAt (oneEntry 1246469400000).cash none (dhakaMidnight 14427) = 500 ∧
    ¬ CutAtMidnights dhakaZone [] (oneEntry 1246469400000) (js "2009-07-01") (js "2009-07-02")
      14426 14427 := by
  have hspan : DaySpan (js "2009-07-01") (js "2009-07-02") 14426 14427 :=
    ⟨by decide +kernel, by decide +kernel, by decide +kernel, by decide⟩
  exact ⟨hspan, oneEntry_stored _, by decide +kernel, by decide +kernel, by decide +kernel,
    not_cut_of_misfiled hspan (by decide +kernel) (by decide +kernel)⟩

end BookHouse
