/-
The texts of the messages: `notifications/domain/templates.ts`.

A template reads a payload of untyped fields.  A field it requires and does not find raises
`TemplateError`, and the worker drops a message that does.
-/
import BookHouse.Money
import Mathlib.Data.Rat.Floor

namespace BookHouse

/-- `TemplateError`, with its message -/
structure TemplateError where
  message : String
deriving DecidableEq, Repr

structure RenderContext where
  storeName : String
  webUrl : String
  helpline : Option String := none
deriving DecidableEq, Repr

structure Rendered where
  subject : String
  text : String
deriving DecidableEq, Repr

/-- A field of a payload.  The numbers that are sent have at most two decimals. -/
inductive PayloadValue
  | null
  | str (v : String)
  | num (v : ℚ)
deriving DecidableEq, Repr

/-- The fields that are there; any other is `undefined`. -/
abbrev Payload := List (String × PayloadValue)

namespace Templates

/-! ### Numbers -/

/-- `n.toFixed(2)` -/
def toFixed2 (n : ℚ) : String :=
  let paisa := ⌊|n| * 100 + 1 / 2⌋.toNat
  let frac := toString (paisa % 100)
  (if n < 0 then "-" else "") ++ toString (paisa / 100) ++ "." ++
    (if frac.length = 1 then "0" ++ frac else frac)

/-- `String(n)`: no zeros at the end of the decimals, and no point without any. -/
def numberText (n : ℚ) : String :=
  String.ofList ((((toFixed2 n).toList.reverse.dropWhile (· = '0')).dropWhile (· = '.')).reverse)

def digitsValue (ds : List Char) : ℕ := ds.foldl (fun n c => 10 * n + (c.toNat - '0'.toNat)) 0

/-- `Number(v)` of a decimal; `none` is `NaN`. -/
def number (v : String) : Option ℚ :=
  let cs := v.toList
  let neg := cs.head? = some '-'
  let cs := if neg then cs.drop 1 else cs
  let whole := cs.takeWhile Char.isDigit
  let rest := cs.dropWhile Char.isDigit
  let value : Option ℚ :=
    match whole, rest with
    | [], _ => none
    | _, [] => some (digitsValue whole)
    | _, point :: frac =>
      if point = '.' && frac.all Char.isDigit then
        some (digitsValue whole + (digitsValue frac : ℚ) / 10 ^ frac.length)
      else none
  value.map fun x => if neg then -x else x

/-- A digit in Bangla. -/
def bnDigit (c : Char) : Char := if c.isDigit then Char.ofNat (c.toNat - '0'.toNat + 0x9E6) else c

def bnDigits (v : String) : String := String.ofList (v.toList.map bnDigit)

/-- `/\B(?=(\d{2})+(?!\d))/g` → `,`: between digits, where pairs are left to the end. -/
def commas : List Char → List Char
  | [] => []
  | c :: rest =>
    if c.isDigit && rest ≠ [] && rest.length % 2 = 0 then c :: ',' :: commas rest
    else c :: commas rest

/-- South-Asian grouping: last 3, then pairs. -/
def grouped (whole : List Char) : List Char :=
  let head := commas (whole.take (whole.length - 3))
  if head = [] then whole else head ++ ',' :: whole.drop (whole.length - 3)

/-- 1234.5 → "৳১,২৩৪.৫০", 1200 → "৳১,২০০" -/
def taka (v : String) : String :=
  match number v with
  | none => "৳০"
  | some n =>
    let fixed := (if n = ⌊n⌋ then numberText n else toFixed2 n).toList
    let whole := fixed.takeWhile (· ≠ '.')
    let frac := (fixed.dropWhile (· ≠ '.')).drop 1
    "৳" ++ bnDigits (String.ofList (grouped whole)) ++
      (if frac = [] then "" else "." ++ bnDigits (String.ofList frac))

/-! ### Fields -/

/-- `String(v)` -/
def PayloadValue.text : PayloadValue → String
  | .null => "null"
  | .str v => v
  | .num v => numberText v

/-- A field that is there, and is neither `null` nor the empty text. -/
def given (p : Payload) (key : String) : Option PayloadValue :=
  (p.lookup key).filter fun v => v ≠ .null && v ≠ .str ""

def req (p : Payload) (key : String) : Except TemplateError String :=
  match given p key with
  | none => .error ⟨s!"template payload missing \"{key}\""⟩
  | some v => .ok (PayloadValue.text v)

def opt (p : Payload) (key : String) : Option String := (given p key).map PayloadValue.text

def hi (p : Payload) : String :=
  match opt p "name" with
  | some name => s!"প্রিয় {name}, "
  | none => ""

/-! ### The templates -/

abbrev Template := Payload → RenderContext → Except TemplateError Rendered

def orderPlaced : Template := fun p c => do
  let orderNo ← req p "orderNo"
  let total ← req p "total"
  return { subject := s!"অর্ডার {orderNo} পেয়েছি"
           text := hi p ++ s!"আপনার অর্ডার {orderNo} (" ++ taka total ++
             s!") পেয়েছি। শিগগিরই কনফার্ম করা হবে। ট্র্যাক: {c.webUrl}/track?order={orderNo} — {c.storeName}" }

def orderConfirmed : Template := fun p c => do
  let orderNo ← req p "orderNo"
  return { subject := s!"অর্ডার {orderNo} নিশ্চিত"
           text := hi p ++
             s!"আপনার অর্ডার {orderNo} নিশ্চিত হয়েছে। প্যাক করে দ্রুত পাঠাচ্ছি। — {c.storeName}" }

def orderShipped : Template := fun p c => do
  let orderNo ← req p "orderNo"
  let link := (opt p "trackingUrl").getD s!"{c.webUrl}/track?order={orderNo}"
  let courier := match opt p "courier" with
    | some name => name ++ "-এ "
    | none => "কুরিয়ারে "
  let tracking := match opt p "trackingNo" with
    | some no => s!" (ট্র্যাকিং: {no})"
    | none => ""
  return { subject := s!"অর্ডার {orderNo} পাঠানো হয়েছে"
           text := hi p ++
             s!"অর্ডার {orderNo} {courier}তুলে দেওয়া হয়েছে{tracking}। ট্র্যাক: {link} — {c.storeName}" }

def orderDelivered : Template := fun p c => do
  let orderNo ← req p "orderNo"
  return { subject := s!"অর্ডার {orderNo} ডেলিভারি সম্পন্ন"
           text := hi p ++
             s!"অর্ডার {orderNo} পৌঁছে গেছে। {c.storeName}-এর সাথে থাকার জন্য ধন্যবাদ! রিভিউ দিন: {c.webUrl}/orders" }

def orderCancelled : Template := fun p c => do
  let orderNo ← req p "orderNo"
  let reason := match opt p "reason" with
    | some reason => s!" ({reason})"
    | none => ""
  let help := match c.helpline.filter (· ≠ "") with
    | some helpline => s!" প্রশ্ন থাকলে কল করুন {helpline}।"
    | none => ""
  return { subject := s!"অর্ডার {orderNo} বাতিল"
           text := hi p ++ s!"অর্ডার {orderNo} বাতিল হয়েছে{reason}।{help} — {c.storeName}" }

def authPasswordReset : Template := fun p c => do
  let code ← req p "code"
  let minutes := bnDigits ((opt p "minutes").getD "10")
  return { subject := s!"{c.storeName} পাসওয়ার্ড রিসেট কোড"
           text := s!"{c.storeName}: আপনার পাসওয়ার্ড রিসেট কোড {code}। {minutes} মিনিটের মধ্যে ব্যবহার করুন। কাউকে কোডটি দেবেন না।" }

def wishlistRestocked : Template := fun p c => do
  let title ← req p "title"
  let slug ← req p "slug"
  let kind := if opt p "kind" = some "bundle" then "pack" else "product"
  return { subject := s!"{title} আবার স্টকে"
           text := hi p ++
             s!"\"{title}\" আবার স্টকে এসেছে! এখনই অর্ডার করুন: {c.webUrl}/{kind}/{slug} — {c.storeName}" }

def staffInvite : Template := fun p c => do
  let role ← req p "role"
  let email ← req p "email"
  let tempPassword ← req p "tempPassword"
  let loginUrl := (opt p "loginUrl").getD s!"{c.webUrl}/admin"
  return { subject := s!"{c.storeName} অ্যাডমিনে আপনাকে যুক্ত করা হয়েছে"
           text := hi p ++
             s!"{c.storeName} অ্যাডমিন প্যানেলে আপনার অ্যাকাউন্ট তৈরি হয়েছে ({role})।\nইমেইল: {email}\nঅস্থায়ী পাসওয়ার্ড: {tempPassword}\nলগইন: {loginUrl}\nপ্রথম লগইনের পর পাসওয়ার্ড বদলে নিন।" }

def staffPasswordReset : Template := fun p c => do
  let tempPassword ← req p "tempPassword"
  let loginUrl := (opt p "loginUrl").getD s!"{c.webUrl}/admin"
  return { subject := s!"{c.storeName} অ্যাডমিন পাসওয়ার্ড রিসেট"
           text := hi p ++
             s!"আপনার অ্যাডমিন পাসওয়ার্ড রিসেট করা হয়েছে।\nঅস্থায়ী পাসওয়ার্ড: {tempPassword}\nলগইন: {loginUrl}" }

/-- `TEMPLATES` -/
def templates : List (String × Template) := [
  ("order.placed", orderPlaced),
  ("order.confirmed", orderConfirmed),
  ("order.shipped", orderShipped),
  ("order.delivered", orderDelivered),
  ("order.cancelled", orderCancelled),
  ("auth.password_reset", authPasswordReset),
  ("wishlist.restocked", wishlistRestocked),
  ("staff.invite", staffInvite),
  ("staff.password_reset", staffPasswordReset)]

def render (template : String) (payload : Payload) (ctx : RenderContext) :
    Except TemplateError Rendered :=
  match templates.lookup template with
  | none => .error ⟨s!"unknown template \"{template}\""⟩
  | some fn => fn payload ctx

end Templates

end BookHouse
