/-
The printable papers: `finance/documents/domain/document-html.ts`.

The texts of a paper are written into a page by hand, each through `escapeHtml`; amounts and
quantities are formatted, and go in as they are.  The date's format is the platform's
(`toLocaleString` of `bn-BD`), so it is a parameter.
-/
import BookHouse.Finance.BnFormat
import BookHouse.Finance.Documents
import BookHouse.Notifications.Producers

namespace BookHouse

namespace DocumentHtml

structure PrintableDocument where
  kind : DocumentKind
  docNo : String
  orderNo : String
  issuedAt : Instant
  paymentLabel : String
  /-- the code of the order's method, or the empty text without an order -/
  paymentMethod : String
  customerName : String
  customerPhone : String
  address : String
  lines : List DocLine
  subtotal : Money
  couponCode : Option String
  discount : Money
  shippingFee : Money
  taxTotal : Money
  total : Money
  gatewayFee : Money
  reason : Option String
  courierLoss : Option Money
  reverseCourier : Bool
  creditsDocNo : Option String := none
deriving DecidableEq, Repr

/-- `DOC_TITLE` -/
def docTitle : DocumentKind → String
  | .invoice => "ইনভয়েস"
  | .receipt => "রিসিট"
  | .creditNote => "ক্রেডিট নোট"

def escapeChar (c : Char) : List Char :=
  if c = '&' then ['&', 'a', 'm', 'p', ';']
  else if c = '<' then ['&', 'l', 't', ';']
  else if c = '>' then ['&', 'g', 't', ';']
  else if c = '\x22' then ['&', 'q', 'u', 'o', 't', ';']
  else if c = '\x27' then ['&', '#', '3', '9', ';']
  else [c]

/-- Each of the five characters replaced; a caller with no text gives the empty one. -/
def escapeHtml (s : String) : String := String.ofList (s.toList.flatMap escapeChar)

def cssLines : List (List String) :=
  [["*\x7bbox-sizing:border-box\x7dbody\x7bmargin:0;background:#f4f1ec;",
      "font-family:\"Hind Siliguri\",\"Noto Sans Bengali\",system-ui,sans-serif;",
      "color:#1f1a17\x7d"],
    [".sheet\x7bmax-width:760px;margin:24px auto;background:#fff;padding:32px 36px;",
      "border-radius:14px;box-shadow:0 8px 30px rgba(0,0,0,.06)\x7d"],
    [".head\x7bdisplay:flex;justify-content:space-between;align-items:flex-start;",
      "border-bottom:2px solid #7a2430;padding-bottom:14px\x7d"],
    [".shop b\x7bfont-size:26px;color:#7a2430\x7d.shop span\x7bdisplay:block;font-size:13px;",
      "color:#8a7f76\x7d"],
    ["h1\x7bmargin:6px 0 0;font-size:20px\x7d.no\x7bfont-family:ui-monospace,monospace;",
      "font-size:15px;color:#555\x7d"],
    [".facts\x7bdisplay:flex;flex-wrap:wrap;gap:18px;margin:16px 0;font-size:14px\x7d",
      ".facts i,.who i\x7bdisplay:block;font-style:normal;font-size:12px;color:#8a7f76\x7d"],
    [".who\x7bmargin:10px 0 18px;font-size:14px\x7d.who b\x7bfont-size:16px\x7d.who p\x7b",
      "margin:4px 0 0;color:#444\x7d"],
    ["table\x7bwidth:100%;border-collapse:collapse;font-size:14px\x7dth,td\x7bpadding:8px 6px;",
      "border-bottom:1px solid #eee;text-align:left\x7dth\x7bfont-size:12px;color:#8a7f76;",
      "font-weight:600\x7d"],
    [".num\x7btext-align:right;white-space:nowrap\x7dtd small\x7bdisplay:block;color:#8a7f76;",
      "font-size:11px\x7d"],
    [".sum\x7bmargin:14px 0 0 auto;max-width:320px;font-size:14px\x7d.sum p\x7bdisplay:flex;",
      "justify-content:space-between;margin:6px 0\x7d.sum .grand\x7bfont-size:17px;",
      "border-top:1px solid #ddd;padding-top:8px\x7d"],
    [".note\x7bmargin-top:18px;padding:10px 12px;background:#faf6f0;border-radius:8px;",
      "font-size:13px;color:#5b514a\x7d"],
    [".print\x7btext-align:right;margin-bottom:10px\x7d.print button\x7bbackground:#7a2430;",
      "color:#fff;border:0;border-radius:8px;padding:8px 14px;font:inherit;cursor:pointer\x7d"],
    ["@media print\x7bbody\x7bbackground:#fff\x7d.sheet\x7bbox-shadow:none;margin:0;",
      "max-width:none\x7d.print\x7bdisplay:none\x7d\x7d"]]

/-- `CSS`; a line is cut where it would be too long. -/
def css : String := "\n" ++ String.join (cssLines.map fun parts => String.join parts ++ "\n")

/-- `isZero(v)`: no amount counts as zero. -/
def isZero (v : Option Money) : Bool := v.all (· = 0)

def lineRow (l : DocLine) : String :=
  let total := l.unitPrice * (l.qty : ℚ)
  "<tr><td><b>" ++ escapeHtml l.title ++ "</b><small>" ++
    (if l.kind = .bundle then "প্যাকেজ" else "পণ্য") ++ "</small></td><td class=\"num\">" ++
    bnDigits (toString l.qty) ++ "</td><td class=\"num\">" ++ BnFormat.bnTaka l.unitPrice ++
    "</td><td class=\"num\">" ++ BnFormat.bnTaka total ++ "</td></tr>"

/-- `sum`, its rows one after the other -/
def sumRows (doc : PrintableDocument) : String :=
  "<p><span>সাবটোটাল</span><b>" ++ BnFormat.bnTaka doc.subtotal ++ "</b></p>" ++
  (if isZero doc.discount then "" else
    "<p><span>কুপন " ++ escapeHtml (doc.couponCode.getD "") ++ "</span><b>−" ++
      BnFormat.bnTaka doc.discount ++ "</b></p>") ++
  "<p><span>ডেলিভারি</span><b>" ++
    (if isZero doc.shippingFee then "ফ্রি" else BnFormat.bnTaka doc.shippingFee) ++ "</b></p>" ++
  (if isZero doc.taxTotal then "" else
    "<p><span>ভ্যাট/কর</span><b>" ++ BnFormat.bnTaka doc.taxTotal ++ "</b></p>") ++
  "<p class=\"grand\"><span>মোট</span><b>" ++ BnFormat.bnTaka doc.total ++ "</b></p>" ++
  (if doc.kind = .receipt ∧ ¬isZero doc.gatewayFee then
    "<p><span>গেটওয়ে ফি</span><b>" ++ BnFormat.bnTaka doc.gatewayFee ++ "</b></p>" else "")

/-- `doc.reason || 'ফেরত'` -/
def reasonText (doc : PrintableDocument) : String :=
  if doc.reason.getD "" = "" then "ফেরত" else doc.reason.getD ""

def note (doc : PrintableDocument) : String :=
  match doc.kind with
  | .invoice =>
      if doc.paymentMethod = "COD" ∨ doc.paymentMethod = "CASH" then
        "বিক্রির কাগজ। ক্যাশ অন ডেলিভারিতে টাকা পরে আসবে — এটা রিসিট নয়।"
      else "বিক্রির কাগজ। পেমেন্ট আলাদা রিসিটে।"
  | .receipt => "টাকা পাওয়া গেছে " ++ BnFormat.bnTaka doc.total ++ "।"
  | .creditNote =>
      "কারণ: " ++ escapeHtml (reasonText doc) ++ "। বিক্রি বাতিল, স্টক ফেরত।" ++
      (if doc.creditsDocNo.getD "" = "" then "" else
        " মূল ইনভয়েস " ++ escapeHtml (doc.creditsDocNo.getD "") ++ "।") ++
      (if isZero doc.courierLoss then "" else
        " কুরিয়ার লস " ++ BnFormat.bnTaka (doc.courierLoss.getD 0) ++ " আলাদা খরচ।") ++
      (if doc.reverseCourier then " কুরিয়ারে ওঠেনি — কুরিয়ার খরচও উল্টেছে।"
        else " কুরিয়ার খরচ থেকে যাচ্ছে।")

/-- The table of the lines, if there are any. -/
def linesTable (rows : String) : String :=
  if rows = "" then "" else
    "<table><thead><tr><th>পণ্য</th><th class=\"num\">পরিমাণ</th>" ++
    "<th class=\"num\">দাম</th>" ++ "<th class=\"num\">মোট</th></tr></thead><tbody>" ++ rows ++
    "</tbody></table>"

/-- Printable Bangla invoice / receipt / credit note. -/
def renderDocumentHtml (bnDateTime : Instant → String) (doc : PrintableDocument) : String :=
  let title := docTitle doc.kind
  let rows := String.join (doc.lines.map lineRow)
  "<!doctype html>\n<html lang=\"bn\"><head><meta charset=\"utf-8\">" ++
  "<meta name=\"viewport\" content=\"width=device-width,initial-scale=1\">\n<title>" ++ title ++
  " " ++ escapeHtml doc.docNo ++ " · চলো</title><style>" ++ css ++ "</style></head>\n" ++
  "<body><main class=\"sheet\">\n<div class=\"print\">" ++
  "<button type=\"button\" onclick=\"window.print()\">প্রিন্ট</button></div>\n" ++
  "<div class=\"head\"><div>" ++
  "<div class=\"shop\"><b>চলো</b><span>কিনে ফেলি</span></div><h1>" ++ title ++
  "</h1></div><p class=\"no\">" ++ escapeHtml doc.docNo ++ "</p></div>\n" ++
  "<div class=\"facts\"><span><i>তারিখ</i>" ++ escapeHtml (bnDateTime doc.issuedAt) ++
  "</span><span><i>অর্ডার</i>" ++ escapeHtml doc.orderNo ++ "</span><span><i>পেমেন্ট</i>" ++
  escapeHtml doc.paymentLabel ++ "</span></div>\n<div class=\"who\"><i>ক্রেতা</i><b>" ++
  escapeHtml doc.customerName ++ "</b> <span>" ++ escapeHtml (localPhone doc.customerPhone) ++
  "</span>" ++ (if doc.address = "" then "" else "<p>" ++ escapeHtml doc.address ++ "</p>") ++
  "</div>\n" ++ linesTable rows ++ "\n<div class=\"sum\">" ++ sumRows doc ++
  "</div>\n<p class=\"note\">" ++ note doc ++ "</p>\n</main></body></html>"

end DocumentHtml

end BookHouse
