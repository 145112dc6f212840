/-
How much may be refunded: `payments/refunds/domain/refund-math.ts`.
-/
import BookHouse.Schema

namespace BookHouse

/--
How much can still be refunded: paid − already refunded − refunds in flight
(REQUESTED/PROCESSING), so two admins cannot refund the same money.
-/
def refundable (amountPaid amountRefunded inFlight : Money) : Money :=
  let r := amountPaid - amountRefunded - inFlight
  if r < 0 then 0 else round2 r

structure RefundAsk where
  amount : Money
  amountPaid : Money
  amountRefunded : Money
  inFlight : Money := 0
  /-- what the gateway payment can give back, for a gateway refund -/
  paymentLimit : Option Money := none
deriving DecidableEq, Repr

/-- The amount to refund, or why it is refused. -/
def checkRefund (p : RefundAsk) : Except Failure Money :=
  let amount := round2 p.amount
  let max := refundable p.amountPaid p.amountRefunded p.inFlight
  if amount ≤ 0 then .error (.rule "refund.amount_invalid" "ফেরতের পরিমাণ শূন্যের বেশি দিন")
  else if p.amountPaid ≤ 0 then
    .error (.rule "refund.nothing_paid" "এই অর্ডারে কোনো টাকা আসেনি — ফেরত দেওয়ার কিছু নেই")
  else if max = 0 then .error (.rule "refund.fully_refunded" "পুরো টাকা আগেই ফেরত দেওয়া হয়েছে")
  else if max < amount then
    .error (.rule "refund.exceeds_paid" ("সর্বোচ্চ ৳" ++ toFixed 2 max ++ " ফেরত দেওয়া যায়")
      [.money "refundable" max])
  else match p.paymentLimit with
    | none => .ok amount
    | some limit =>
      if limit < amount then
        .error (.rule "refund.exceeds_payment"
          ("এই পেমেন্ট থেকে সর্বোচ্চ ৳" ++ toFixed 2 limit ++ " ফেরত সম্ভব")
          [.money "refundable" limit])
      else .ok amount

/-- Order payment status after refunds are applied. -/
def paymentStatusAfterRefund (amountPaid amountRefunded : Money) : OrderPaymentStatus :=
  if amountPaid ≤ 0 then .unpaid
  else if amountRefunded ≤ 0 then .paid
  else if amountPaid ≤ amountRefunded then .refunded
  else .partiallyRefunded

/-- SSLCOMMERZ refund API status → our refund status. -/
def mapGatewayRefundStatus (status : Option String) : RefundStatus :=
  let s := String.ofList ((status.getD "").toList.map Char.toLower)
  if s ∈ ["success", "refunded", "done"] then .completed
  else if s ∈ ["processing", "initiated", "pending"] then .processing
  else .failed

/-- Everything a granted refund met. -/
theorem checkRefund_ok {p : RefundAsk} {amount : Money} (h : checkRefund p = .ok amount) :
    amount = round2 p.amount ∧ 0 < amount ∧ 0 < p.amountPaid ∧
      amount ≤ refundable p.amountPaid p.amountRefunded p.inFlight ∧
      ∀ limit, p.paymentLimit = some limit → amount ≤ limit := by
  unfold checkRefund at h
  simp only at h
  split at h
  · cases h
  rename_i hpos
  split at h
  · cases h
  rename_i hpaid
  split at h
  · cases h
  split at h
  · cases h
  rename_i hmax
  cases hl : p.paymentLimit with
  | none =>
      rw [hl] at h
      obtain rfl := Except.ok.inj h
      exact ⟨rfl, not_le.mp hpos, not_le.mp hpaid, not_lt.mp hmax, fun _ hc => by cases hc⟩
  | some limit =>
      rw [hl] at h
      simp only at h
      split at h
      · cases h
      rename_i hlimit
      obtain rfl := Except.ok.inj h
      refine ⟨rfl, not_le.mp hpos, not_le.mp hpaid, not_lt.mp hmax, fun l hc => ?_⟩
      obtain rfl := Option.some.inj hc
      exact not_lt.mp hlimit

end BookHouse
