/-
A captured payment is captured once.

The rows of `payments` and the ledger are compared with the log of the desk: a payment
is SUCCESS exactly when the log has one move to it, the ledger has the two legs of its
capture exactly then, and each such move is followed by its event.  Everything the desk
does keeps this but one statement: the failure of a session is written over the row as it
is.
-/
import BookHouse.Proofs.Callbacks
import BookHouse.Proofs.Cashbook
import Mathlib.Algebra.BigOperators.Group.Finset.Piecewise

namespace BookHouse

open Prog (Contract Act World)
open GatewayDesk Machine

/-! ### The two legs of a capture -/

/-- The money into the gateway balance, and the fee out of it. -/
inductive Leg
  | settlement
  | fee
deriving DecidableEq, Repr

namespace Leg

def kind : Leg → CashTxnKind
  | settlement => .gatewaySettlement
  | fee => .gatewayFee

def direction : Leg → CashDirection
  | settlement => .in_
  | fee => .out

def memo (orderNo tranId : String) : Leg → String
  | settlement => "SSL " ++ orderNo ++ " · " ++ tranId
  | fee => "SSL ফি " ++ orderNo ++ " · " ++ tranId

/-- The entries of one leg of one payment. -/
def finds (orderId : OrderId) (orderNo tranId : String) (leg : Leg) : CashLedger.Match :=
  { orderId := some orderId, kind := leg.kind, direction := some leg.direction,
    memo := some (leg.memo orderNo tranId) }

/-- What a captured payment owes the ledger. -/
def due (amount fee : Money) : Leg → List Money
  | .settlement => [amount]
  | .fee => if 0 < fee then [fee] else []

theorem kind_inj {leg leg' : Leg} (h : leg.kind = leg'.kind) : leg = leg' := by
  cases leg <;> cases leg' <;> first | rfl | cases h

theorem memo_inj {orderNo tranId tranId' : String} {leg : Leg}
    (h : leg.memo orderNo tranId = leg.memo orderNo tranId') : tranId = tranId' := by
  cases leg with
  | settlement => exact (String.append_right_inj _).mp h
  | fee => exact (String.append_right_inj _).mp h

theorem memo_length {orderNo tranId : String} (hno : orderNo.length ≤ 30)
    (htran : tranId.length ≤ 30) (leg : Leg) : (leg.memo orderNo tranId).length ≤ 500 := by
  have hlegs : "SSL ".length = 4 ∧ "SSL ফি ".length = 7 ∧ " · ".length = 3 := by decide
  cases leg with
  | settlement => simp only [memo, String.length_append, hlegs]; omega
  | fee => simp only [memo, String.length_append, hlegs]; omega

end Leg

theorem sliceTo_of_length {n : ℕ} {text : String} (h : text.length ≤ n) : sliceTo n text = text := by
  have hlength : text.toList.length ≤ n := by rwa [String.length_toList]
  rw [sliceTo, List.take_of_length_le hlength, String.ofList_toList]

namespace CashLedger

variable {b b' : Cashbook} {c : GatewayCapture}

/-- What a posting writes is the leg of a capture. -/
structure OfLeg (c : GatewayCapture) (leg : Leg) (r : CashTransaction) : Prop where
  kind : r.kind = leg.kind
  direction : r.direction = leg.direction
  orderId : r.orderId = some c.orderId
  memo : r.memo = leg.memo c.orderNo c.tranId

theorem OfLeg.holds_iff {leg leg' : Leg} {r : CashTransaction} (h : OfLeg c leg r)
    {orderId : OrderId} {tranId : String} :
    (leg'.finds orderId c.orderNo tranId).holds r = true ↔
      leg = leg' ∧ c.orderId = orderId ∧ c.tranId = tranId := by
  rw [CashLedger.holds_iff]
  constructor
  · rintro ⟨horder, hkind, -, hmemo⟩
    have hleg : leg = leg' := Leg.kind_inj (h.kind.symm.trans hkind)
    subst hleg
    have horder' : r.orderId = some orderId := by simpa [Leg.finds] using horder
    exact ⟨rfl, Option.some.inj (h.orderId.symm.trans horder'),
      Leg.memo_inj (h.memo.symm.trans (hmemo _ rfl))⟩
  · rintro ⟨rfl, rfl, rfl⟩
    refine ⟨.inr h.orderId, h.kind, fun d hd => ?_, fun t ht => ?_⟩
    · exact h.direction.trans (Option.some.inj hd)
    · exact h.memo.trans (Option.some.inj ht)

theorem OfLeg.filter_self {leg : Leg} {r : CashTransaction} (h : OfLeg c leg r) (leg' : Leg) :
    [r].filter (leg'.finds c.orderId c.orderNo c.tranId).holds = if leg = leg' then [r] else [] := by
  by_cases hleg : leg = leg'
  · rw [if_pos hleg, List.filter_singleton, h.holds_iff.mpr ⟨hleg, rfl, rfl⟩]
    rfl
  · have hother : (leg'.finds c.orderId c.orderNo c.tranId).holds r = false := by
      rw [← Bool.not_eq_true, h.holds_iff]
      exact fun hc => hleg hc.1
    rw [if_neg hleg, List.filter_singleton, hother]
    rfl

/-- **The capture of a payment that the ledger does not know posts its legs.** -/
theorem recordGatewayCapture_ok (hno : c.orderNo.length ≤ 30) (htran : c.tranId.length ≤ 30)
    (hamount : round2 c.amount = c.amount) (hfee : round2 c.fee = c.fee)
    (hnew : b.entries.filter (Leg.settlement.finds c.orderId c.orderNo c.tranId).holds = [])
    (h : recordGatewayCapture b c = .ok b') :
    ∃ rows, b'.entries = b.entries ++ rows ∧ (∀ r ∈ rows, ∃ leg, OfLeg c leg r) ∧
      ∀ leg : Leg, (rows.filter (leg.finds c.orderId c.orderNo c.tranId).holds).map
        CashTransaction.amount = leg.due c.amount c.fee := by
  have hshort := fun leg => sliceTo_of_length (Leg.memo_length hno htran leg)
  have hfresh : has b (Leg.settlement.finds c.orderId c.orderNo c.tranId) = false := by
    refine has_eq_false.mpr (List.filter_eq_nil_iff.mpr fun e he hc => ?_)
    have hnone := List.filter_eq_nil_iff.mp hnew e he
    rw [Bool.and_eq_true] at hc
    exact hnone hc.1
  let e : PostEntry :=
    { account := .accountCode .sslcommerz, direction := .in_, kind := .gatewaySettlement,
      amount := c.amount, memo := c.memo, orderId := some c.orderId, occurredAt := c.at_ }
  let f : PostEntry :=
    { account := .accountCode .sslcommerz, direction := .out, kind := .gatewayFee,
      amount := c.fee, memo := c.feeMemo, orderId := some c.orderId, occurredAt := c.at_ }
  have he : ∀ id acc, OfLeg c .settlement (e.row id acc) := fun id acc =>
    ⟨rfl, rfl, rfl, hshort .settlement⟩
  have hf : ∀ id acc, OfLeg c .fee (f.row id acc) := fun id acc => ⟨rfl, rfl, rfl, hshort .fee⟩
  unfold recordGatewayCapture at h
  rw [if_neg (by rw [← Bool.not_eq_true] at hfresh; exact hfresh)] at h
  obtain ⟨b₁, hin, hrest⟩ := Result.bind_ok.mp h
  obtain ⟨-, acc, hin⟩ := post_ok hin
  by_cases hpos : 0 < c.fee
  · rw [if_pos hpos] at hrest
    obtain ⟨-, acc', hout⟩ := post_ok hrest
    refine ⟨[e.row b.entries.length acc] ++ [f.row b₁.entries.length acc'], ?_, ?_, fun leg => ?_⟩
    · rw [hout, hin, List.append_assoc]
    · intro r hr
      rcases List.mem_pair.mp hr with rfl | rfl
      · exact ⟨.settlement, he _ _⟩
      · exact ⟨.fee, hf _ _⟩
    · rw [List.filter_append, (he _ _).filter_self, (hf _ _).filter_self]
      cases leg with
      | settlement => exact congrArg (fun x => [x]) hamount
      | fee =>
          have hcol : (f.row b₁.entries.length acc').amount = c.fee := hfee
          simp [Leg.due, hpos, hcol]
  · rw [if_neg hpos] at hrest
    obtain rfl := Result.pure_ok.mp hrest
    refine ⟨[e.row b.entries.length acc], hin, ?_, fun leg => ?_⟩
    · intro r hr
      obtain rfl := List.mem_singleton.mp hr
      exact ⟨.settlement, he _ _⟩
    · rw [(he _ _).filter_self]
      cases leg with
      | settlement => exact congrArg (fun x => [x]) hamount
      | fee => simp [Leg.due, hpos]

end CashLedger

variable {config : GatewayConfig} {i : ℕ} {s t : GatewayDesk} {p : Payment}

namespace GatewayDesk

/-- How often a payment became SUCCESS. -/
def successes (s : GatewayDesk) (id : PaymentId) : ℕ := s.log.countP fun e => e.2.isSuccess id

/-- How often its event went out. -/
def emitted (s : GatewayDesk) (id : PaymentId) : ℕ := s.log.countP fun e => e.2.isEmitted id

/-- The amounts of the ledger for one leg of a payment. -/
def posted (s : GatewayDesk) (orderNo : String) (p : Payment) (leg : Leg) : List Money :=
  (s.cash.entries.filter (leg.finds p.orderId orderNo (p.tranId.getD "")).holds).map
    CashTransaction.amount

end GatewayDesk

/-! ### Events -/

/-- No more events than successes. -/
def Owing (own : List Happening) : Prop :=
  ∀ id, own.countP (Happening.isEmitted id) ≤ own.countP (Happening.isSuccess id)

theorem Owing.append {new own : List Happening} (h : Owing own)
    (hnew : ∀ y ∈ new, ∀ id, y.isEmitted id = false) : Owing (new ++ own) := by
  intro id
  have hnone : new.countP (Happening.isEmitted id) = 0 :=
    List.countP_eq_zero.mpr fun y hy => by rw [hnew y hy id]; simp
  have hold := h id
  rw [List.countP_append, List.countP_append, hnone]
  omega

theorem owing_step {o : GatewayOp} {x : Outside} {r : Except Fault o.Res} (hs : Sound s)
    (hpre : deskPre config i o s) (hj : ∀ j, Owing (s.own j)) (h : o.exec i x s = some (r, t)) :
    ∀ j, Owing (t.own j) := by
  have hadd : ∀ new : List Happening, t.log = entries i new ++ s.log →
      Owing (new ++ s.own i) → ∀ j, Owing (t.own j) := by
    intro new hlog howing j
    by_cases hij : j = i
    · rw [hij, own_append_self hlog]
      exact howing
    · rw [own_append_ne hlog hij]
      exact hj j
  have hmoves : ∀ moves : List Happening, t.log = entries i moves ++ s.log →
      (∀ y ∈ moves, y.isMove = true) → ∀ j, Owing (t.own j) := by
    intro moves hlog hm
    refine hadd moves hlog ((hj i).append fun y hy id => ?_)
    have := hm y hy
    cases y with
    | moved => rfl
    | _ => cases this
  have hmove : ∀ {p : Payment} {f : Payment → Payment},
      t.log = (s.moved i p f).log → ∀ j, Owing (t.own j) := by
    intro p f hlog
    refine hmoves [.moved p.id p.status (f p).status] hlog fun y hy => ?_
    rw [List.mem_singleton.mp hy]
    rfl
  cases exec_payStep hs hpre h with
  | @rest _ _ new log still input payments cash events cancels =>
      by_cases hany : ∃ y ∈ new, ∃ id, y.isEmitted id = true
      · obtain ⟨y, hy, id, hid⟩ := hany
        obtain ⟨rfl, orderId, e, rfl⟩ := events y hy id hid
        obtain ⟨before, own, hown, heven⟩ := hpre
        refine hadd [y] log fun k => ?_
        have hk := heven k
        rw [hown]
        cases y with
        | succeeded k' o' e' =>
            have hid' : k' = id := by simpa [Happening.isEmitted] using hid
            subst hid'
            by_cases hkk : k' = k
            · simp [Happening.isEmitted, Happening.isSuccess, hkk, hk]
            · simp [Happening.isEmitted, Happening.isSuccess, hkk, hk]
        | _ => cases hid
      · refine hadd new log ((hj i).append fun y hy id => ?_)
        rw [← Bool.not_eq_true]
        exact fun hc => hany ⟨y, hy, id, hc⟩
  | pending row before => exact hmove rfl
  | closed row before => exact hmove rfl
  | captured row before posted => exact hmove rfl
  | session row => exact hmove rfl
  | created id orderId tran status fresh => exact hmoves [] rfl fun y hy => absurd hy (by simp)
  | superseded =>
      obtain ⟨moves, hm, hmoved⟩ := wrote_supersede (s := s) (i := i) _
      refine hmoves moves hm.log fun y hy => ?_
      obtain ⟨p, -, -, -, rfl⟩ := hmoved y hy
      rfl

/-- The entries of a log, thread by thread. -/
theorem countP_happenedIn {n : ℕ} {c : Happening → Bool} :
    ∀ log : List (ℕ × Happening), (∀ e ∈ log, e.1 < n) →
      log.countP (fun e => c e.2) = ∑ j ∈ Finset.range n, (happenedIn j log).countP c := by
  intro log
  induction log with
  | nil => intro _; simp [happenedIn]
  | cons e rest ih =>
      intro hlt
      have hrest := ih fun x hx => hlt x (List.mem_cons_of_mem _ hx)
      have hcons : ∀ j, (happenedIn j (e :: rest)).countP c =
          (happenedIn j rest).countP c + if j = e.1 then (if c e.2 then 1 else 0) else 0 := by
        intro j
        by_cases hj : e.1 = j
        · simp [happenedIn, hj, List.countP_cons]
        · have hj' : ¬j = e.1 := fun hc => hj hc.symm
          simp [happenedIn, hj, hj']
      rw [List.countP_cons, hrest, Finset.sum_congr rfl fun j _ => hcons j,
        Finset.sum_add_distrib, Finset.sum_ite_eq']
      simp [hlt e List.mem_cons_self]

theorem exists_bound (log : List (ℕ × Happening)) : ∃ n, ∀ e ∈ log, e.1 < n := by
  induction log with
  | nil => exact ⟨0, fun e he => absurd he (by simp)⟩
  | cons e rest ih =>
      obtain ⟨n, hn⟩ := ih
      refine ⟨max n (e.1 + 1), fun x hx => ?_⟩
      rcases List.mem_cons.mp hx with rfl | hx
      · omega
      · have := hn x hx
        omega

theorem emitted_le (h : ∀ j, Owing (s.own j)) (id : PaymentId) : s.emitted id ≤ s.successes id := by
  obtain ⟨n, hn⟩ := exists_bound s.log
  rw [emitted, successes, countP_happenedIn s.log hn, countP_happenedIn s.log hn]
  exact Finset.sum_le_sum fun j _ => h j id

theorem emitted_eq (h : ∀ j, Even (s.own j)) (id : PaymentId) : s.emitted id = s.successes id := by
  obtain ⟨n, hn⟩ := exists_bound s.log
  rw [emitted, successes, countP_happenedIn s.log hn, countP_happenedIn s.log hn]
  exact Finset.sum_congr rfl fun j _ => (h j id).symm

/-! ### The rows, the log and the ledger agree -/

/-- What the table, the log and the ledger say of each other. -/
structure Book (s : GatewayDesk) : Prop where
  status : ∀ p ∈ s.payments, p.status ≠ .refunded
  tally : ∀ p ∈ s.payments, s.successes p.id = if p.status = .success then 1 else 0
  moves : ∀ e ∈ s.log, ∀ id before after, e.2 = .moved id before after →
    id < s.payments.length ∧ before ≠ .success
  posted : ∀ p ∈ s.payments, ∀ o, Rows.lookup Order.id p.orderId s.orders = some o → ∀ leg,
    s.posted o.orderNo p leg = if p.status = .success then leg.due p.amount p.fee else []
  /-- no leg without its payment -/
  backed : ∀ e ∈ s.cash.entries, ∀ leg : Leg, e.kind = leg.kind → ∃ p ∈ s.payments, ∃ o,
    Rows.lookup Order.id p.orderId s.orders = some o ∧ e.orderId = some p.orderId ∧
      e.memo = leg.memo o.orderNo (p.tranId.getD "")

theorem posted_congr {q : Payment} {orderNo : String} (hterms : q.terms = p.terms)
    (hcash : t.cash.entries = s.cash.entries) (leg : Leg) :
    t.posted orderNo q leg = s.posted orderNo p leg := by
  have horder : q.orderId = p.orderId := congrArg (fun x => x.2.1) hterms
  have htran : q.tranId = p.tranId := congrArg (fun x => x.2.2.2.2) hterms
  rw [GatewayDesk.posted, GatewayDesk.posted, hcash, horder, htran]

theorem GatewayDesk.Sound.id_lt (hs : Sound s) (hp : p ∈ s.payments) : p.id < s.payments.length :=
  List.mem_range.mp (hs.ids ▸ List.mem_map_of_mem hp)

/-- The order of a payment keeps its number. -/
theorem order_of_grows (hs : Sound s) (hg : Grows s t) (hp : p ∈ s.payments) {o : Order}
    (ho : Rows.lookup Order.id p.orderId t.orders = some o) :
    ∃ o', Rows.lookup Order.id p.orderId s.orders = some o' ∧ o'.orderNo = o.orderNo := by
  obtain ⟨o', ho'⟩ := hs.placed p hp
  obtain ⟨o'', ho'', hno⟩ := hg.orders _ o' ho'
  obtain rfl := Option.some.inj (ho''.symm.trans ho)
  exact ⟨o', ho', hno.symm⟩

/-- Rows that are SUCCESS where they were, with nothing posted. -/
theorem Book.of_rows (h : Book s) (hs : Sound s) (hg : Grows s t)
    {new : List Happening} (hlog : t.log = entries i new ++ s.log)
    (hnew : ∀ y ∈ new, ∀ id before after, y = .moved id before after →
      id < t.payments.length ∧ before ≠ .success ∧ after ≠ .success)
    (hlength : t.payments.length = s.payments.length)
    (hrows : ∀ q ∈ t.payments, ∃ p ∈ s.payments, q.terms = p.terms ∧ q.status ≠ .refunded ∧
      (q.status = .success ↔ p.status = .success) ∧ (p.status = .success → q.fee = p.fee))
    (hcash : t.cash.entries = s.cash.entries) : Book t := by
  have hsuccesses : ∀ id, t.successes id = s.successes id := by
    intro id
    have hnone : (entries i new).countP (fun e => e.2.isSuccess id) = 0 := by
      refine List.countP_eq_zero.mpr fun e he => ?_
      obtain ⟨y, hy, rfl⟩ := List.mem_map.mp he
      cases y with
      | moved k before after =>
          obtain ⟨-, -, hafter⟩ := hnew _ hy k before after rfl
          cases after <;> simp_all [Happening.isSuccess]
      | _ => simp [Happening.isSuccess]
    rw [successes, hlog, List.countP_append, hnone, Nat.zero_add]
    rfl
  refine ⟨fun q hq => ?_, fun q hq => ?_, fun e he id before after heq => ?_,
    fun q hq o ho leg => ?_, fun e he leg hkind => ?_⟩
  · obtain ⟨p, -, -, hstatus, -⟩ := hrows q hq
    exact hstatus
  · obtain ⟨p, hp, hterms, -, hiff, -⟩ := hrows q hq
    have hid : q.id = p.id := congrArg (fun x => x.1) hterms
    rw [hsuccesses, hid, h.tally p hp]
    simp only [hiff]
  · rw [hlog] at he
    rcases List.mem_append.mp he with hn | ho
    · obtain ⟨y, hy, rfl⟩ := List.mem_map.mp hn
      obtain ⟨hlt, hbefore, -⟩ := hnew y hy id before after heq
      exact ⟨hlt, hbefore⟩
    · obtain ⟨hlt, hbefore⟩ := h.moves e ho id before after heq
      exact ⟨hlength ▸ hlt, hbefore⟩
  · obtain ⟨p, hp, hterms, -, hiff, hfee⟩ := hrows q hq
    have horder : q.orderId = p.orderId := congrArg (fun x => x.2.1) hterms
    have hamount : q.amount = p.amount := congrArg (fun x => x.2.2.1) hterms
    obtain ⟨o', ho', hno⟩ := order_of_grows hs hg hp (horder ▸ ho)
    rw [posted_congr hterms hcash, ← hno, h.posted p hp o' ho' leg, hamount]
    by_cases hpaid : p.status = .success
    · rw [if_pos hpaid, if_pos (hiff.mpr hpaid), hfee hpaid]
    · rw [if_neg hpaid, if_neg fun hc => hpaid (hiff.mp hc)]
  · obtain ⟨p, hp, o, ho, horder, hmemo⟩ := h.backed e (hcash ▸ he) leg hkind
    obtain ⟨q, hq, hterms⟩ := hg.payments p.id p (Rows.lookup_of_mem hs.nodup hp)
    obtain ⟨o', ho', hno⟩ := hg.orders _ o ho
    have hqorder : q.orderId = p.orderId := congrArg (fun x => x.2.1) hterms
    have hqtran : q.tranId = p.tranId := congrArg (fun x => x.2.2.2.2) hterms
    exact ⟨q, Rows.mem_of_lookup hq, o', hqorder ▸ ho', hqorder ▸ horder,
      by rw [hqtran, hno]; exact hmemo⟩

/-- A row moves between two statuses that are not SUCCESS. -/
theorem Book.of_move {f : Payment → Payment} (h : Book s) (hs : Sound s)
    (hg : Grows s (s.moved i p f))
    (hp : Rows.lookup Payment.id p.id s.payments = some p) (hf : (f p).terms = p.terms)
    (hbefore : p.status ≠ .success) (hafter : (f p).status ≠ .success)
    (hopen : (f p).status ≠ .refunded) : Book (s.moved i p f) := by
  have hmem := Rows.mem_of_lookup hp
  have hlength : (s.moved i p f).payments.length = s.payments.length := Rows.length_modify
  refine h.of_rows hs hg (show _ = entries i [.moved p.id p.status (f p).status] ++ s.log from rfl)
    ?_ hlength (fun q hq => ?_) rfl
  · intro y hy id before after heq
    obtain rfl := List.mem_singleton.mp hy
    obtain ⟨rfl, rfl, rfl⟩ := Happening.moved.inj heq
    exact ⟨hlength ▸ hs.id_lt hmem, hbefore, hafter⟩
  · rcases Rows.mem_modify hs.nodup hp hq with rfl | ⟨hold, -⟩
    · exact ⟨p, hmem, hf, hopen, ⟨fun hc => absurd hc hafter, fun hc => absurd hc hbefore⟩,
        fun hc => absurd hc hbefore⟩
    · exact ⟨q, hold, rfl, h.status q hold, Iff.rfl, fun _ => rfl⟩

/-- A new attempt owes nothing, and nothing is posted for its tran_id. -/
theorem Book.of_created (h : Book s) (hs : Sound s) (hid : p.id = s.payments.length)
    (hstatus : p.status = .initiated) (hnamed : ∃ tranId, p.tranId = some tranId)
    (hfresh : p.tranId ∉ s.payments.map Payment.tranId) :
    Book { s with payments := s.payments ++ [p] } := by
  have hunpaid : p.status ≠ .success := by simp [hstatus]
  refine ⟨Procs.forall_append h.status (by simp [hstatus]), Procs.forall_append h.tally ?_,
    fun e he id before after heq => ?_, Procs.forall_append h.posted fun o ho leg => ?_,
    fun e he leg hkind => ?_⟩
  · rw [if_neg hunpaid]
    refine List.countP_eq_zero.mpr fun e he hc => ?_
    cases hy : e.2 with
    | moved id before after =>
        obtain ⟨hlt, -⟩ := h.moves e he id before after hy
        rw [hy] at hc
        cases after with
        | success =>
            have hsame : id = p.id := by simpa [Happening.isSuccess] using hc
            exact absurd hlt (by rw [hsame, hid]; exact lt_irrefl _)
        | _ => cases hc
    | _ => rw [hy] at hc; cases hc
  · obtain ⟨hlt, hbefore⟩ := h.moves e he id before after heq
    exact ⟨by rw [List.length_append]; exact Nat.lt_add_right _ hlt, hbefore⟩
  · rw [if_neg hunpaid]
    refine List.map_eq_nil_iff.mpr (List.filter_eq_nil_iff.mpr fun e he hc => ?_)
    obtain ⟨horder, hkind, -, hmemo⟩ := CashLedger.holds_iff.mp hc
    obtain ⟨q, hq, o', ho', hqorder, hqmemo⟩ := h.backed e he leg hkind
    have horder' : e.orderId = some p.orderId := by simpa [Leg.finds] using horder
    have hsame : q.orderId = p.orderId := Option.some.inj (hqorder.symm.trans horder')
    obtain rfl := Option.some.inj (ho'.symm.trans (hsame ▸ ho))
    have htran := Leg.memo_inj (hqmemo.symm.trans (hmemo _ rfl))
    obtain ⟨tranId, hp⟩ := hnamed
    obtain ⟨tranId', hq', -⟩ := hs.named q hq
    rw [hp, hq'] at htran
    refine hfresh (List.mem_map.mpr ⟨q, hq, ?_⟩)
    rw [hp, hq']
    exact congrArg some htran
  · obtain ⟨q, hq, hrest⟩ := h.backed e he leg hkind
    exact ⟨q, List.mem_append_left _ hq, hrest⟩

/-- A posting is the row's own. -/
structure PostingOf (s : GatewayDesk) (p : Payment) (o : Order)
    (posting : CashLedger.GatewayCapture) : Prop where
  order : Rows.lookup Order.id p.orderId s.orders = some o
  orderNo : o.orderNo = posting.orderNo
  orderId : posting.orderId = p.orderId
  amount : posting.amount = p.amount
  tranId : p.tranId = some posting.tranId
  short : posting.orderNo.length ≤ 30 ∧ posting.tranId.length ≤ 30
  columns : round2 posting.amount = posting.amount ∧ round2 posting.fee = posting.fee

theorem postingOf_capture (hs : Sound s) {id : PaymentId} {columns : PaymentSettlement.Captured}
    {posting : CashLedger.GatewayCapture} (hpre : deskPre config i (.capture id columns posting) s)
    (hp : Rows.lookup Payment.id id s.payments = some p) :
    columns.fee = posting.fee ∧ ∃ o, PostingOf s p o posting := by
  obtain ⟨q, hq⟩ := hpre
  obtain ⟨p', hp', hterms⟩ := hq.known
  obtain rfl := Option.some.inj (hp'.symm.trans (hq.id ▸ hp))
  have hmem := Rows.mem_of_lookup hp
  have horder : p'.orderId = q.orderId := congrArg (fun x => x.2.1) hterms
  have hamount : p'.amount = q.amount := congrArg (fun x => x.2.2.1) hterms
  have htran : p'.tranId = some posting.tranId :=
    (congrArg (fun x => x.2.2.2.2) hterms).trans hq.tranId
  obtain ⟨o, ho, hno⟩ := hq.orderNo
  obtain ⟨tranId, hnamed, hle⟩ := hs.named p' hmem
  obtain rfl := Option.some.inj (htran.symm.trans hnamed)
  refine ⟨hq.fee.symm, o, horder ▸ ho, hno, hq.orderId.trans horder.symm,
    hq.amount.trans hamount.symm, htran, ⟨?_, hle⟩, ?_, hq.fee ▸ hq.feeColumn.2⟩
  · exact hno ▸ (fitsColumns_iff.mp (hs.columns o (Rows.mem_of_lookup ho))).1
  · rw [hq.amount, ← hamount]
    exact (hs.amounts p' hmem).2

/-- Of another payment a capture posts nothing. -/
theorem PostingOf.other {o : Order} {posting : CashLedger.GatewayCapture}
    (hpost : PostingOf s p o posting) (hs : Sound s) (hp : p ∈ s.payments) {q : Payment}
    (hq : q ∈ s.payments) (hne : q.id ≠ p.id) {oq : Order}
    (hoq : Rows.lookup Order.id q.orderId s.orders = some oq) {rows : List CashTransaction}
    (hlegs : ∀ r ∈ rows, ∃ leg, CashLedger.OfLeg posting leg r) (leg : Leg) :
    rows.filter (leg.finds q.orderId oq.orderNo (q.tranId.getD "")).holds = [] := by
  refine List.filter_eq_nil_iff.mpr fun r hr hc => ?_
  obtain ⟨leg', hleg⟩ := hlegs r hr
  have horder : q.orderId = p.orderId := by
    have hfound : r.orderId = some q.orderId := by
      simpa [Leg.finds] using (CashLedger.holds_iff.mp hc).1
    exact (Option.some.inj (hfound.symm.trans hleg.orderId)).trans hpost.orderId
  have hsame : o = oq := Option.some.inj (hpost.order.symm.trans (horder ▸ hoq))
  rw [← hsame, hpost.orderNo, hleg.holds_iff] at hc
  obtain ⟨tranId, hnamed, -⟩ := hs.named q hq
  have htran : q.tranId = p.tranId := by
    rw [hpost.tranId, hc.2.2, hnamed]
    rfl
  have hqp : q = p := List.inj_on_of_nodup_map hs.tranIds hq hp htran
  exact hne (congrArg Payment.id hqp)

/-- A capture posts the legs of its payment. -/
theorem Book.of_captured (h : Book s) (hs : Sound s) {id : PaymentId}
    {columns : PaymentSettlement.Captured} {posting : CashLedger.GatewayCapture} {cash : Cashbook}
    (hpre : deskPre config i (.capture id columns posting) s)
    (hp : Rows.lookup Payment.id id s.payments = some p) (hopen : p.status.isFinalOk = false)
    (hposted : CashLedger.recordGatewayCapture s.cash posting = .ok cash) :
    Book { s.moved i p (PaymentSettlement.succeed columns posting.at_) with cash } := by
  obtain ⟨hfee, o, hpost⟩ := postingOf_capture hs hpre hp
  obtain rfl := Rows.key_of_lookup hp
  have hmem := Rows.mem_of_lookup hp
  have hunpaid : p.status ≠ .success := by
    intro hc
    rw [hc] at hopen
    cases hopen
  have htran : p.tranId.getD "" = posting.tranId := by rw [hpost.tranId]; rfl
  have hnone : ∀ leg : Leg, (s.cash.entries.filter
      (leg.finds posting.orderId posting.orderNo posting.tranId).holds).map
        CashTransaction.amount = [] := by
    intro leg
    have hold := h.posted p hmem o hpost.order leg
    rw [if_neg hunpaid, GatewayDesk.posted, htran, hpost.orderNo, ← hpost.orderId] at hold
    exact hold
  obtain ⟨rows, hrows, hlegs, hdue⟩ := CashLedger.recordGatewayCapture_ok hpost.short.1
    hpost.short.2 hpost.columns.1 hpost.columns.2 (List.map_eq_nil_iff.mp (hnone .settlement)) hposted
  let f := PaymentSettlement.succeed columns posting.at_
  have hf : ∀ q, (f q).terms = q.terms := fun q => PaymentSettlement.terms_succeed _ _
  have hid : (f p).id = p.id := congrArg (fun x => x.1) (hf p)
  have horder : (f p).orderId = p.orderId := congrArg (fun x => x.2.1) (hf p)
  have hpaid : (f p).status = .success := by simp [f, PaymentSettlement.succeed, hopen]
  have hfeeCol : (f p).fee = posting.fee := by simp [f, PaymentSettlement.succeed, hopen, hfee]
  let t : GatewayDesk := { s.moved i p f with cash }
  have hsuccesses : ∀ id, t.successes id = s.successes id + if p.id = id then 1 else 0 := by
    intro id
    show List.countP _ ((i, Happening.moved p.id p.status (f p).status) :: s.log) = _
    rw [List.countP_cons, hpaid]
    simp [Happening.isSuccess, successes]
  have hlength : t.payments.length = s.payments.length := Rows.length_modify
  have hkeep : ∀ q ∈ s.payments, ∃ q' ∈ t.payments, q'.orderId = q.orderId ∧ q'.tranId = q.tranId := by
    intro q hq
    have hcols : t.payments.map Payment.terms = s.payments.map Payment.terms := Rows.map_modify hf
    obtain ⟨q', hq', heq⟩ := List.mem_map.mp
      (hcols ▸ List.mem_map_of_mem hq : q.terms ∈ t.payments.map Payment.terms)
    exact ⟨q', hq', congrArg (fun x => x.2.1) heq, congrArg (fun x => x.2.2.2.2) heq⟩
  -- the captured row, or one that was there
  have hcases : ∀ q ∈ t.payments, q = f p ∨ q ∈ s.payments ∧ q.id ≠ p.id :=
    fun q hq => Rows.mem_modify hs.nodup hp hq
  refine ⟨fun q hq => ?_, fun q hq => ?_, fun e he k before after heq => ?_,
    fun q hq oq hoq leg => ?_, fun e he leg hkind => ?_⟩
  · rcases hcases q hq with rfl | ⟨hold, -⟩
    · simp [hpaid]
    · exact h.status q hold
  · show t.successes q.id = _
    rw [hsuccesses]
    rcases hcases q hq with rfl | ⟨hold, hne⟩
    · rw [hid, h.tally p hmem, if_neg hunpaid, if_pos rfl, if_pos hpaid]
    · have hother : ¬p.id = q.id := fun hc => hne hc.symm
      rw [h.tally q hold, if_neg hother, Nat.add_zero]
  · show k < t.payments.length ∧ _
    rw [hlength]
    rcases List.mem_cons.mp he with rfl | hold
    · obtain ⟨rfl, rfl, rfl⟩ := Happening.moved.inj heq
      exact ⟨hs.id_lt hmem, hunpaid⟩
    · exact h.moves e hold k before after heq
  · show (cash.entries.filter (leg.finds q.orderId oq.orderNo (q.tranId.getD "")).holds).map
      CashTransaction.amount = _
    rw [hrows, List.filter_append, List.map_append]
    rcases hcases q hq with rfl | ⟨hold, hne⟩
    · have hoq' : oq = o := Option.some.inj (hoq.symm.trans (horder ▸ hpost.order))
      have htranf : (f p).tranId = p.tranId := congrArg (fun x => x.2.2.2.2) (hf p)
      have hamountf : (f p).amount = p.amount := congrArg (fun x => x.2.2.1) (hf p)
      rw [hoq', hpost.orderNo, horder, ← hpost.orderId, htranf, htran, hnone, List.nil_append,
        hdue, if_pos hpaid, hamountf, hfeeCol, hpost.amount]
    · rw [hpost.other hs hmem hold hne hoq hlegs leg, List.map_nil, List.append_nil]
      exact h.posted q hold oq hoq leg
  · rw [show t.cash.entries = s.cash.entries ++ rows from hrows] at he
    rcases List.mem_append.mp he with hold | hnew
    · obtain ⟨q, hq, oq, hoq, hqo, hqm⟩ := h.backed e hold leg hkind
      obtain ⟨q', hq', horder', htran'⟩ := hkeep q hq
      exact ⟨q', hq', oq, horder' ▸ hoq, horder' ▸ hqo, htran' ▸ hqm⟩
    · obtain ⟨leg', hleg⟩ := hlegs e hnew
      obtain rfl : leg' = leg := Leg.kind_inj (hleg.kind.symm.trans hkind)
      obtain ⟨q', hq', horder', htran'⟩ := hkeep p hmem
      refine ⟨q', hq', o, horder' ▸ hpost.order, ?_, ?_⟩
      · rw [horder', ← hpost.orderId]
        exact hleg.orderId
      · rw [htran', htran, hpost.orderNo]
        exact hleg.memo

/-! ### Every step -/

/-- A failed session is not written over a payment that is SUCCESS by then. -/
def SessionSpares (_ : ℕ) : GatewayOp → Outside → GatewayDesk → Prop
  | .sessionFailed id _, x, s =>
    x.fault = none → (Rows.lookup Payment.id id s.payments).all (·.status ≠ .success) = true
  | _, _, _ => True

instance : ∀ i o x s, Decidable (SessionSpares i o x s) := by
  intro i o x s
  unfold SessionSpares
  split
  · infer_instance
  · infer_instance

theorem book_step {o : GatewayOp} {x : Outside} {r : Except Fault o.Res} (hs : Sound s)
    (hpre : deskPre config i o s) (hok : SessionSpares i o x s) (hb : Book s)
    (h : o.exec i x s = some (r, t)) : Book t := by
  obtain ⟨_, hw, -⟩ := exec_effect hs hpre h
  have hg := hw.grows
  cases exec_payStep hs hpre h with
  | rest log still input payments cash events cancels =>
      refine hb.of_rows hs hg log (fun y hy id before after heq => ?_) (by rw [payments])
        (fun q hq => ?_) (by rw [cash])
      · have hstill := still y hy
        rw [heq] at hstill
        cases hstill
      · have hq' := payments ▸ hq
        exact ⟨q, hq', rfl, hb.status q hq', Iff.rfl, fun _ => rfl⟩
  | @pending id reason p row before =>
      obtain rfl := Rows.key_of_lookup row
      have hafter : (PaymentSettlement.markPending reason p).status = .pending := by
        simp [PaymentSettlement.markPending, before]
      exact hb.of_move hs hg row (PaymentSettlement.terms_markPending _) (by simp [before])
        (by simp [hafter]) (by simp [hafter])
  | @closed id status reason p row before =>
      obtain rfl := Rows.key_of_lookup row
      have hafter : (PaymentSettlement.fail status reason p).status = status.status := by
        simp [PaymentSettlement.fail, before]
      refine hb.of_move hs hg row (PaymentSettlement.terms_fail _ _) (fun hc => ?_) ?_ ?_
      · rw [hc] at before
        cases before
      · rw [hafter]
        cases status <;> simp [Failable.status]
      · rw [hafter]
        cases status <;> simp [Failable.status]
  | captured row before posted => exact hb.of_captured hs hpre row before posted
  | created id orderId tran status fresh =>
      exact hb.of_created hs id status ⟨_, tran⟩ fresh
  | @session id reason p row =>
      obtain rfl := Rows.key_of_lookup row
      have hfault : x.fault = none := by
        cases hx : x.fault with
        | none => rfl
        | some fault =>
            -- a write that throws leaves the row
            simp only [GatewayOp.exec, hx, GatewayOp.canFail, Option.filter_some, if_true,
              Option.some.injEq, Prod.mk.injEq] at h
            have hlog := congrArg (fun d => d.log.length) h.2
            simp [GatewayOp.dropped, GatewayDesk.moved] at hlog
      have hunpaid : p.status ≠ .success := by simpa [row] using hok hfault
      exact hb.of_move hs hg row rfl hunpaid (by simp [PaymentCheckout.sessionFailed])
        (by simp [PaymentCheckout.sessionFailed])
  | @superseded orderId =>
      obtain ⟨moves, hm, hmoved⟩ := wrote_supersede (s := s) (i := i) orderId
      refine hb.of_rows hs hg hm.log (fun y hy id before after heq => ?_)
        (List.length_map _) (fun q hq => ?_) rfl
      · obtain ⟨p, hp, -, hopen, hy'⟩ := hmoved y hy
        obtain ⟨rfl, rfl, rfl⟩ := Happening.moved.inj (heq.symm.trans hy')
        have hlength : (s.supersede i orderId).payments.length = s.payments.length :=
          List.length_map _
        refine ⟨hlength ▸ hs.id_lt hp, fun hc => ?_, by simp⟩
        rw [hc] at hopen
        cases hopen
      · obtain ⟨p, hp, rfl⟩ := List.mem_map.mp hq
        refine ⟨p, hp, ?_⟩
        by_cases hmine : p.orderId = orderId ∧ p.status.isOpen = true
        · have hunpaid : p.status ≠ .success := by
            intro hc
            have hopen := hmine.2
            rw [hc] at hopen
            cases hopen
          simp [hmine.1, PaymentCheckout.superseded, hmine.2, hunpaid, Payment.terms]
        · have hsame : (if p.orderId = orderId then PaymentCheckout.superseded p else p) = p := by
            by_cases horder : p.orderId = orderId
            · have hopen : p.status.isOpen = false := by simpa [horder] using hmine
              simp [PaymentCheckout.superseded, hopen]
            · rw [if_neg horder]
          rw [hsame]
          exact ⟨rfl, hb.status p hp, Iff.rfl, fun _ => rfl⟩

/-! ### Whole runs -/

/-- A desk before its first attempt, with nothing of the gateway in the ledger. -/
structure CaptureOpening (s : GatewayDesk) : Prop extends DeskOpening s where
  cash : ∀ e ∈ s.cash.entries, e.kind ≠ .gatewaySettlement ∧ e.kind ≠ .gatewayFee

instance (s : GatewayDesk) : Decidable (CaptureOpening s) :=
  decidable_of_iff (DeskOpening s ∧
    ∀ e ∈ s.cash.entries, e.kind ≠ .gatewaySettlement ∧ e.kind ≠ .gatewayFee)
    ⟨fun h => ⟨h.1, h.2⟩, fun h => ⟨h.toDeskOpening, h.cash⟩⟩

theorem CaptureOpening.book (h : CaptureOpening s) : Book s := by
  refine ⟨fun p hp => ?_, fun p hp => ?_, fun e he => ?_, fun p hp => ?_, fun e he leg hkind => ?_⟩
  · rw [h.payments] at hp
    cases hp
  · rw [h.payments] at hp
    cases hp
  · rw [h.log] at he
    cases he
  · rw [h.payments] at hp
    cases hp
  · obtain ⟨hin, hout⟩ := h.cash e he
    cases leg with
    | settlement => exact absurd hkind hin
    | fee => exact absurd hkind hout

/-- What holds of a payment that was captured, or was not. -/
structure CapturedOnce (s : GatewayDesk) (p : Payment) : Prop where
  once : s.successes p.id ≤ 1
  final : ∀ i after, (i, .moved p.id .success after) ∈ s.log → after = .refunded
  status : p.status = .success ∨ p.status = .refunded ↔ s.successes p.id = 1
  ledger : ∃ o, Rows.lookup Order.id p.orderId s.orders = some o ∧ ∀ leg,
    s.posted o.orderNo p leg = if s.successes p.id = 1 then leg.due p.amount p.fee else []
  events : s.emitted p.id ≤ s.successes p.id

theorem Book.capturedOnce (h : Book s) (hs : Sound s) (hj : ∀ j, Owing (s.own j))
    (hp : p ∈ s.payments) : CapturedOnce s p := by
  have htally := h.tally p hp
  obtain ⟨o, ho⟩ := hs.placed p hp
  have hposted := h.posted p hp o ho
  refine ⟨?_, fun j after hm => ?_, ?_, ⟨o, ho, fun leg => ?_⟩, emitted_le hj p.id⟩
  · rw [htally]
    split <;> omega
  · exact absurd rfl (h.moves _ hm p.id .success after rfl).2
  · have hnot := h.status p hp
    by_cases hpaid : p.status = .success
    · simp [htally, hpaid]
    · simp [htally, hpaid, hnot]
  · rw [hposted leg, htally]
    by_cases hpaid : p.status = .success
    · simp [hpaid]
    · simp [hpaid]

/-- **A payment is captured once, in every run whose failed sessions spare it.** -/
theorem captured_once (config : GatewayConfig) (s₀ : GatewayDesk) (w : GatewayWorld)
    (as : List (Act GatewayRequest Outside)) (hopen : CaptureOpening s₀)
    (hguard : GuardedRun (gatewayStep config) (World.Admits SessionSpares) { state := s₀ } as)
    (hrun : runFrom (gatewayStep config) { state := s₀ } as = some w) :
    (∀ p ∈ w.state.payments, CapturedOnce w.state p) ∧
      ((∀ t ∈ w.threads, t.ended = true) →
        ∀ id, w.state.emitted id = w.state.successes id) := by
  have hkept := gateway_run (hopen.kept config) hrun
  have hstart : ∀ j, Owing (s₀.own j) := by
    intro j id
    show List.countP _ (happenedIn j s₀.log) ≤ _
    rw [hopen.log]
    exact Nat.zero_le _
  obtain ⟨hb, hj⟩ : Book w.state ∧ ∀ j, Owing (w.state.own j) :=
    gateway_guarded (J := fun s => Book s ∧ ∀ j, Owing (s.own j)) (hopen.kept config)
      ⟨hopen.book, hstart⟩ (fun i o x s r t hs hpre hok h he =>
        ⟨book_step hs hpre hok h.1 he, owing_step hs hpre h.2 he⟩) hguard hrun
  refine ⟨fun p hp => hb.capturedOnce hkept.inv hj hp, fun hall id => emitted_eq (fun j => ?_) id⟩
  cases ht : w.threads[j]? with
  | some t =>
      obtain ⟨_, heven⟩ := hkept.promised ht (hall t (List.mem_of_getElem? ht))
      exact heven
  | none =>
      have hfresh := hkept.fresh j (List.getElem?_eq_none_iff.mp ht)
      show Even (w.state.own j)
      rw [show w.state.own j = [] from hfresh]
      exact even_nil

theorem captured_once_shopperPays :
    ∃ w, runFrom (gatewayStep asciiConfig) { state := onlineDesk } (shopperPays "BDT") = some w ∧
      (∀ p ∈ w.state.payments, CapturedOnce w.state p) ∧ w.state.successes 0 = 1 ∧
      w.state.emitted 0 = 1 := by
  have hruns : (runFrom (gatewayStep asciiConfig) { state := onlineDesk }
      (shopperPays "BDT")).any (fun w => w.state.successes 0 = 1 ∧
        w.threads.all (fun t => t.ended) = true) = true := by
    decide +kernel
  obtain ⟨w, hw, hfacts⟩ := Option.any_eq_true _ _ |>.mp hruns
  obtain ⟨hsuccess, hended⟩ := of_decide_eq_true hfacts
  obtain ⟨honce, hevents⟩ := captured_once asciiConfig onlineDesk w (shopperPays "BDT")
    (by decide +kernel) (by decide +kernel) hw
  refine ⟨w, hw, honce, hsuccess, ?_⟩
  rw [hevents (fun t ht => List.all_eq_true.mp hended t ht) 0, hsuccess]

/-- The shopper pays while the session is still being opened, and its answer is lost. -/
def sessionLost : List (Act GatewayRequest Outside) :=
  let tran : Body := [("tran_id", "CLO-2041-1")]
  [.start (.init { key := .id 0, phone := some "+8801700000000" }),
   .run 0 {}, .run 0 {}, .run 0 {}, .run 0 { now := 1 },
   .start (.callback .success (("val_id", "v1") :: tran)),
   .run 1 {}, .run 1 {}, .run 1 {}, .run 1 {}, .run 1 { validation := some (paidAnswer "BDT") },
   .run 1 {}, .run 1 { now := 3 }, .run 1 {}, .run 1 {}, .run 1 { now := 3 },
   .run 0 { fault := some (.gateway "timeout") }, .run 0 {}]

/-- The captured payment leaves SUCCESS. -/
theorem session_failure_over_success :
    ∃ w, runFrom (gatewayStep asciiConfig) { state := onlineDesk } sessionLost = some w ∧
      (0, .moved 0 .success .failed) ∈ w.state.log ∧
      w.state.payments.map Payment.status = [.failed] ∧
      w.state.cash.entries.map CashTransaction.amount = [560, 14] := by
  have hruns : (runFrom (gatewayStep asciiConfig) { state := onlineDesk } sessionLost).any
      (fun w => (0, .moved 0 .success .failed) ∈ w.state.log ∧
        w.state.payments.map Payment.status = [.failed] ∧
        w.state.cash.entries.map CashTransaction.amount = [560, 14]) = true := by
    decide +kernel
  obtain ⟨w, hw, hfacts⟩ := Option.any_eq_true _ _ |>.mp hruns
  exact ⟨w, hw, of_decide_eq_true hfacts⟩

end BookHouse
