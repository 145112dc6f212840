/-
What the gateway's answers mean: `payments/sslcommerz/domain/validation.ts` and
`payments/sslcommerz/domain/signature.ts`.

Everything arrives as strings, any of which may be missing.
-/
import BookHouse.Payments.Checkout
import BookHouse.Runtime

namespace BookHouse

/-! ### Decimals in strings -/

def digits (cs : List Char) : Option ℕ :=
  if !cs.isEmpty && cs.all Char.isDigit then
    some (cs.foldl (fun n c => 10 * n + (c.toNat - '0'.toNat)) 0)
  else none

/-- The value of `/^\d+(\.\d+)?$/`. -/
def unsigned (cs : List Char) : Option ℚ :=
  match cs.span (· ≠ '.') with
  | (whole, []) => (digits whole).map fun n => n
  | (whole, _ :: frac) =>
    match digits whole, digits frac with
    | some n, some m => some (n + m / 10 ^ frac.length)
    | _, _ => none

/-- The value of `/^-?\d+(\.\d+)?$/`. -/
def decimal (v : String) : Option ℚ :=
  match v.toList with
  | '-' :: cs => (unsigned cs).map fun x => -x
  | cs => unsigned cs

def isNumeric (v : String) : Bool := (decimal (trim v)).isSome

/-- `D(v)` of a numeric string: blanks around it are refused. -/
def parseD (v : String) : Except Fault ℚ :=
  match decimal v with
  | some x => .ok x
  | none => .error (.error ("[DecimalError] Invalid argument: " ++ v))

/-! ### The validation API -/

/-- Fields of the validation API / IPN we rely on. -/
structure SslValidation where
  status : Option String := none
  tranId : Option String := none
  valId : Option String := none
  amount : Option String := none
  storeAmount : Option String := none
  currency : Option String := none
  currencyType : Option String := none
  currencyAmount : Option String := none
  bankTranId : Option String := none
  cardType : Option String := none
  cardBrand : Option String := none
  riskLevel : Option String := none
  error : Option String := none
deriving DecidableEq, Repr

/-- `v || …`: an empty string counts as missing. -/
def given (v : Option String) : Option String := v.filter (· ≠ "")

structure Expected where
  tranId : String
  amount : Money
  currency : String
deriving DecidableEq, Repr

/-- The columns a success brings. -/
structure SslSuccess where
  valId : String
  bankTranId : Option String
  cardType : Option String
  cardBrand : Option String
  riskLevel : Option ℚ
deriving DecidableEq, Repr

inductive ValidationDecision
  | success (s : SslSuccess)
  /-- a real answer about THIS transaction: it is not paid -/
  | notPaid (status : Failable) (reason : String)
  /-- paid, but not what we asked for (tampered amount/currency) -/
  | mismatch (reason : String)
  /-- does not describe our transaction (wrong/forged val_id) — do not touch the payment -/
  | foreign (reason : String)
  /-- gateway has no final answer yet -/
  | pending (reason : String)
deriving DecidableEq, Repr

variable (host : Host)

def paidWords : List String := ["VALID", "VALIDATED"]

def mapNotPaid (status : String) : Option Failable :=
  match host.toUpperCase status with
  | "FAILED" => some .failed
  | "CANCELLED" => some .cancelled
  | "EXPIRED" | "UNATTEMPTED" => some .expired
  | _ => none

namespace SslValidation

/-- `String(v.status ?? '').toUpperCase()` -/
def statusWord (v : SslValidation) : String := host.toUpperCase (v.status.getD "")

/-- The currency we sent in the session (`currency` is already BDT). -/
def currencyWord (v : SslValidation) : String :=
  host.toUpperCase ((given v.currencyType).getD ((given v.currency).getD ""))

/-- The amount we sent in the session (`amount` is already converted to BDT). -/
def paidAmount (v : SslValidation) : Option String := v.currencyAmount.or v.amount

end SslValidation

/-- The answer is VALID for the transaction: is it what we asked for? -/
def evaluatePaid (expected : Expected) (v : SslValidation) :
    Except Fault ValidationDecision :=
  let currency := v.currencyWord host
  if currency ≠ host.toUpperCase expected.currency then
    .ok (.mismatch ("currency " ++ if currency = "" then "?" else currency))
  else
    match v.paidAmount with
    | none => .ok (.mismatch "amount ?")
    | some amount =>
      if !isNumeric amount then .ok (.mismatch ("amount " ++ amount))
      else
        match parseD amount with
        | .error fault => .error fault
        | .ok paid =>
          if round2 paid ≠ round2 expected.amount then .ok (.mismatch ("amount " ++ amount))
          else
            match given v.valId with
            | none => .ok (.pending "no_val_id")
            | some valId => .ok (.success
                { valId, bankTranId := given v.bankTranId,
                  cardType := (given v.cardType).map (sliceTo 60),
                  cardBrand := (given v.cardBrand).map (sliceTo 30),
                  riskLevel := (given v.riskLevel).bind host.number })

/--
Decide what a validation-API answer means for our payment.  Success requires status
VALID/VALIDATED, the same tran_id, and the same amount and currency we sent in the session.
-/
def evaluateValidation (expected : Expected) (answer : Option SslValidation) :
    Except Fault ValidationDecision :=
  match answer with
  | none => .ok (.pending "no_response")
  | some v =>
    let status := v.statusWord host
    let said (otherwise : String) := if status = "" then otherwise else host.toLowerCase status
    if (given v.tranId).any (· ≠ expected.tranId) then .ok (.foreign "tran_id_mismatch")
    else if status = "INVALID_TRANSACTION" || (given v.tranId).isNone then
      .ok (.foreign (said "no_tran_id"))
    else if status ∈ paidWords then evaluatePaid host expected v
    else
      match mapNotPaid host status with
      | some failable => .ok (.notPaid failable (sliceTo 200 ((given v.error).getD status)))
      | none => .ok (.pending (said "unknown"))

/-! ### The transaction-status API -/

structure TranQuery where
  apiConnect : Option String := none
  element : List SslValidation := []
deriving DecidableEq, Repr

inductive QueryOutcome
  | paid (valId : String)
  | notPaid (status : Failable) (reason : String)
  | none
  | pending
deriving DecidableEq, Repr

/-- A paid attempt, with the val_id that proves it. -/
def paidElement (e : SslValidation) : Option String :=
  if e.statusWord host ∈ paidWords then given e.valId else none

/-- Interpret the transaction-status API (by tran_id).  Any VALID attempt wins. -/
def interpretTransactionQuery (answer : Option TranQuery) (tranId : String) : QueryOutcome :=
  match answer with
  | none => .pending
  | some q =>
    if (given q.apiConnect).any (· ≠ "DONE") then .pending
    else
      let els := q.element.filter fun e => (given e.tranId).all (· = tranId)
      match els.getLast? with
      | none => .none
      | some last =>
        match els.findSome? (paidElement host) with
        | some valId => .paid valId
        | none =>
          if els.any fun e => e.statusWord host = "PENDING" then .pending
          else
            match mapNotPaid host (last.status.getD "") with
            | some failable =>
                .notPaid failable (sliceTo 200 ((given last.error).getD (last.status.getD "")))
            | none => .pending

/-! ### The gateway's fee -/

/--
Gateway fee = amount − store_amount (what SSLCOMMERZ keeps).  When store_amount is
missing or odd, fall back to the configured fee %.
-/
def computeGatewayFee (amount : Money) (storeAmount : Option String) (fallbackPct : ℚ) :
    Except Fault Money :=
  let fallback := if 0 < fallbackPct then percentOf amount fallbackPct else 0
  match (given storeAmount).filter isNumeric with
  | none => .ok fallback
  | some text =>
    match parseD text with
    | .error fault => .error fault
    | .ok stored =>
      let fee := round2 (amount - stored)
      .ok (if 0 ≤ fee ∧ fee ≤ amount then fee else fallback)

/-! ### The hash of a callback -/

/-- A request body: its fields as strings; one that is missing reads as "". -/
abbrev Body := List (String × String)

def Body.get (body : Body) (key : String) : String := (body.lookup key).getD ""

/-- The UTF-16 code units of a text, which JavaScript compares. -/
def codeUnits (v : String) : List ℕ :=
  v.toList.flatMap fun c =>
    let n := c.toNat
    if n < 0x10000 then [n]
    else [0xD800 + (n - 0x10000) / 0x400, 0xDC00 + (n - 0x10000) % 0x400]

/-- `sort()` -/
def sortKeys (keys : List String) : List String :=
  keys.insertionSort fun a b => codeUnits a ≤ codeUnits b

/-- The pieces of a text between commas. -/
def splitKeys (text : String) : List String :=
  (text.toList.splitOn ',').map fun key => trim (String.ofList key)

/-- Assigning a text to `data.__proto__` makes no key. -/
def computeSslSignature (payload : Body) (storePassword : String) : Option String :=
  let verifyKey := payload.get "verify_key"
  if verifyKey = "" then none
  else
    let keys := (splitKeys verifyKey).filter fun key => key ≠ "" && key ≠ "__proto__"
    let value (key : String) :=
      if key = "store_passwd" then host.md5 storePassword else payload.get key
    let hashString := "&".intercalate
      ((sortKeys (keys ++ ["store_passwd"]).dedup).map fun k => k ++ "=" ++ value k)
    some (host.md5 hashString)

/-- A text of the digest's length whose bytes are more throws in `timingSafeEqual`. -/
def verifySslSignature (payload : Body) (storePassword : String) : Except Fault Bool :=
  let sign := host.toLowerCase (payload.get "verify_sign")
  match computeSslSignature host payload storePassword with
  | none => .ok false
  | some expected =>
    if sign = "" || (codeUnits sign).length ≠ (codeUnits expected).length then .ok false
    else if sign.utf8ByteSize ≠ expected.utf8ByteSize then
      .error (.error "Input buffers must have the same byte length")
    else .ok (sign = expected)

end BookHouse
