/-
No text of a paper becomes markup.

A paper is a template with a slot for each of its texts (`pieces`), and `escapeHtml` writes a
character so that it is read as itself (`escapes`).  The template is safe from block to block,
so its tokens are known up to the texts; and it is made from the amounts, the kinds and which
texts are there, so two papers that agree on these have one template.
-/
import BookHouse.Finance.DocumentHtml
import BookHouse.Lib.HtmlPieces
import BookHouse.Proofs.BnFormat

namespace BookHouse

open Html

namespace DocumentHtml

/-! ### Escaping -/

section escaping

variable {refs : CharRefs} {m : Mode}

theorem run_amp (hm : m.Decodes) :
    run refs (.text m) ['&', 'a', 'm', 'p', ';'] = (.text m, [.char '&']) := by
  simp [run, step, plainStep, textStep, hm, charRefStep, namedRef, longest_whole refs.named_amp,
    Place.put]

theorem run_lt (hm : m.Decodes) :
    run refs (.text m) ['&', 'l', 't', ';'] = (.text m, [.char '<']) := by
  simp [run, step, plainStep, textStep, hm, charRefStep, namedRef, longest_whole refs.named_lt,
    Place.put]

theorem run_gt (hm : m.Decodes) :
    run refs (.text m) ['&', 'g', 't', ';'] = (.text m, [.char '>']) := by
  simp [run, step, plainStep, textStep, hm, charRefStep, namedRef, longest_whole refs.named_gt,
    Place.put]

theorem run_quot (hm : m.Decodes) :
    run refs (.text m) ['&', 'q', 'u', 'o', 't', ';'] = (.text m, [.char quotation]) := by
  simp [run, step, plainStep, textStep, hm, charRefStep, namedRef, longest_whole refs.named_quot,
    Place.put]

theorem run_apos (hm : m.Decodes) :
    run refs (.text m) ['&', '#', '3', '9', ';'] = (.text m, [.char apostrophe]) := by
  simp [run, step, plainStep, textStep, hm, charRefStep, numericRef, numericDigits, digitValue,
    refs.numeric_apos, Place.put]

theorem shown_of_ne {c : Char} (h : c ≠ '\x00') : m.shown c = c := by
  cases m
  · rfl
  · exact if_neg h
  · exact if_neg h

theorem shown_eq_null {c : Char} (h : m.shown c = '\x00') : c = '\x00' := by
  by_contra hc
  rw [shown_of_ne hc] at h
  exact hc h

/-- A character is read as it was, whichever of the five it is, or none. -/
theorem escapes : Escapes escapeChar where
  read refs m c hm := by
    unfold escapeChar
    split
    · next hc => rw [hc, run_amp hm, shown_of_ne (by decide)]
    split
    · next hc => rw [hc, run_lt hm, shown_of_ne (by decide)]
    split
    · next hc => rw [hc, run_gt hm, shown_of_ne (by decide)]
    split
    · next hc => rw [hc, run_quot hm, shown_of_ne (by decide)]; rfl
    split
    · next hc => rw [hc, run_apos hm, shown_of_ne (by decide)]; rfl
    · next hamp hlt _ _ _ => simp [run, step, plainStep, textStep, hamp, hlt]
  return_ := by decide
  newline := by decide
  other c hreturn hnewline := by
    unfold escapeChar
    split_ifs <;> simp [Ne.symm hreturn, Ne.symm hnewline]

end escaping

/-! ### The template of a paper -/

/-- The texts that are printed on a paper. -/
inductive DocumentText
  | docNo | orderNo | issuedAt | paymentLabel | customerName | customerPhone | address
  | lineTitle (i : ℕ)
  | couponCode | reason | creditsDocNo
deriving DecidableEq, Repr

abbrev Part := Piece DocumentText

/-- The text as it is printed: a phone number in its local form. -/
def textOf (bnDateTime : Instant → String) (doc : PrintableDocument) : DocumentText → String
  | .docNo => doc.docNo
  | .orderNo => doc.orderNo
  | .issuedAt => bnDateTime doc.issuedAt
  | .paymentLabel => doc.paymentLabel
  | .customerName => doc.customerName
  | .customerPhone => localPhone doc.customerPhone
  | .address => doc.address
  | .lineTitle i => (doc.lines[i]?).elim "" (·.title)
  | .couponCode => doc.couponCode.getD ""
  | .reason => doc.reason.getD ""
  | .creditsDocNo => doc.creditsDocNo.getD ""

def fixed (text : String) : Part := .markup text.toList

def headParts (kind : DocumentKind) : List Part :=
  [fixed "<!doctype html>\n<html lang=\"bn\"><head><meta charset=\"utf-8\">",
    fixed "<meta name=\"viewport\" content=\"width=device-width,initial-scale=1\">\n<title>",
    fixed (docTitle kind), fixed " ", .slot .docNo, fixed " · চলো</title><style>", fixed css,
    fixed "</style></head>\n"]

def shopParts (kind : DocumentKind) : List Part :=
  [fixed "<body><main class=\"sheet\">\n<div class=\"print\">",
    fixed "<button type=\"button\" onclick=\"window.print()\">প্রিন্ট</button></div>\n",
    fixed "<div class=\"head\"><div>",
    fixed "<div class=\"shop\"><b>চলো</b><span>কিনে ফেলি</span></div><h1>", fixed (docTitle kind),
    fixed "</h1></div><p class=\"no\">", .slot .docNo, fixed "</p></div>\n",
    fixed "<div class=\"facts\"><span><i>তারিখ</i>", .slot .issuedAt,
    fixed "</span><span><i>অর্ডার</i>", .slot .orderNo, fixed "</span><span><i>পেমেন্ট</i>",
    .slot .paymentLabel, fixed "</span></div>\n<div class=\"who\"><i>ক্রেতা</i><b>",
    .slot .customerName, fixed "</b> <span>", .slot .customerPhone, fixed "</span>"]

def addressParts (doc : PrintableDocument) : List Part :=
  if doc.address = "" then [] else [fixed "<p>", .slot .address, fixed "</p>"]

def rowParts (i : ℕ) (l : DocLine) : List Part :=
  [fixed "<tr><td><b>", .slot (.lineTitle i), fixed "</b><small>",
    fixed (if l.kind = .bundle then "প্যাকেজ" else "পণ্য"), fixed "</small></td><td class=\"num\">",
    fixed (bnDigits (toString l.qty)), fixed "</td><td class=\"num\">",
    fixed (BnFormat.bnTaka l.unitPrice), fixed "</td><td class=\"num\">",
    fixed (BnFormat.bnTaka (l.unitPrice * (l.qty : ℚ))), fixed "</td></tr>"]

/-- The rows of the lines from the `i`-th on. -/
def rowsParts : ℕ → List DocLine → List Part
  | _, [] => []
  | i, l :: ls => rowParts i l ++ rowsParts (i + 1) ls

def tableParts (lines : List DocLine) : List Part :=
  if lines = [] then [] else
    [fixed "<table><thead><tr><th>পণ্য</th><th class=\"num\">পরিমাণ</th>",
      fixed "<th class=\"num\">দাম</th>",
      fixed "<th class=\"num\">মোট</th></tr></thead><tbody>"] ++ rowsParts 0 lines ++
    [fixed "</tbody></table>"]

def sumParts (doc : PrintableDocument) : List Part :=
  [fixed "<p><span>সাবটোটাল</span><b>", fixed (BnFormat.bnTaka doc.subtotal), fixed "</b></p>"] ++
  (if isZero doc.discount then [] else
    [fixed "<p><span>কুপন ", .slot .couponCode, fixed "</span><b>−",
      fixed (BnFormat.bnTaka doc.discount), fixed "</b></p>"]) ++
  [fixed "<p><span>ডেলিভারি</span><b>",
    fixed (if isZero doc.shippingFee then "ফ্রি" else BnFormat.bnTaka doc.shippingFee),
    fixed "</b></p>"] ++
  (if isZero doc.taxTotal then [] else
    [fixed "<p><span>ভ্যাট/কর</span><b>", fixed (BnFormat.bnTaka doc.taxTotal),
      fixed "</b></p>"]) ++
  [fixed "<p class=\"grand\"><span>মোট</span><b>", fixed (BnFormat.bnTaka doc.total),
    fixed "</b></p>"] ++
  (if doc.kind = .receipt ∧ ¬isZero doc.gatewayFee then
    [fixed "<p><span>গেটওয়ে ফি</span><b>", fixed (BnFormat.bnTaka doc.gatewayFee),
      fixed "</b></p>"]
    else [])

def reasonParts (doc : PrintableDocument) : List Part :=
  if doc.reason.getD "" = "" then [fixed "ফেরত", fixed "। বিক্রি বাতিল, স্টক ফেরত।"]
  else [.slot .reason, fixed "। বিক্রি বাতিল, স্টক ফেরত।"]

def noteParts (doc : PrintableDocument) : List Part :=
  match doc.kind with
  | .invoice =>
      [fixed (if doc.paymentMethod = "COD" ∨ doc.paymentMethod = "CASH" then
        "বিক্রির কাগজ। ক্যাশ অন ডেলিভারিতে টাকা পরে আসবে — এটা রিসিট নয়।"
      else "বিক্রির কাগজ। পেমেন্ট আলাদা রিসিটে।")]
  | .receipt => [fixed "টাকা পাওয়া গেছে ", fixed (BnFormat.bnTaka doc.total), fixed "।"]
  | .creditNote =>
      [fixed "কারণ: "] ++ reasonParts doc ++
      (if doc.creditsDocNo.getD "" = "" then [] else
        [fixed " মূল ইনভয়েস ", .slot .creditsDocNo, fixed "।"]) ++
      (if isZero doc.courierLoss then [] else
        [fixed " কুরিয়ার লস ", fixed (BnFormat.bnTaka (doc.courierLoss.getD 0)),
          fixed " আলাদা খরচ।"]) ++
      [fixed (if doc.reverseCourier then " কুরিয়ারে ওঠেনি — কুরিয়ার খরচও উল্টেছে।"
        else " কুরিয়ার খরচ থেকে যাচ্ছে।")]

def bodyParts (doc : PrintableDocument) : List Part :=
  shopParts doc.kind ++ addressParts doc ++ [fixed "</div>\n"] ++ tableParts doc.lines ++
  [fixed "\n<div class=\"sum\">"] ++ sumParts doc ++
  [fixed "</div>\n<p class=\"note\">"] ++ noteParts doc ++ [fixed "</p>\n</main></body></html>"]

/-- The template of a paper. -/
def pieces (doc : PrintableDocument) : List Part := headParts doc.kind ++ bodyParts doc

/-! ### The template makes the page -/

section page

variable {value : DocumentText → List Char} {ps : List Part} {doc : PrintableDocument}

@[simp] theorem html_fixed (text : String) :
    html escapeChar value (fixed text :: ps) = text.toList ++ html escapeChar value ps := rfl

@[simp] theorem toList_escapeHtml (s : String) :
    (escapeHtml s).toList = s.toList.flatMap escapeChar := String.toList_ofList

theorem html_slot (x : DocumentText) :
    html escapeChar value (.slot x :: ps) =
      (value x).flatMap escapeChar ++ html escapeChar value ps := rfl

theorem html_nil : html escapeChar value ([] : List Part) = [] := rfl

theorem html_rowParts (i : ℕ) (l : DocLine) (h : value (.lineTitle i) = l.title.toList) :
    html escapeChar value (rowParts i l) = (lineRow l).toList := by
  unfold rowParts lineRow
  simp only [html_fixed, html_slot, html_nil, String.toList_append]
  simp only [h, toList_escapeHtml, List.append_nil]
  simp only [List.append_assoc]

/-- The rows of the lines, whose titles are in the slots from the `i`-th on. -/
theorem html_rowsParts (ls : List DocLine) (i : ℕ)
    (h : ∀ j l, ls[j]? = some l → value (.lineTitle (i + j)) = l.title.toList) :
    html escapeChar value (rowsParts i ls) = (String.join (ls.map lineRow)).toList := by
  induction ls generalizing i with
  | nil => rfl
  | cons l ls ih =>
      have hrest := ih (i + 1) fun j l' hj => by
        rw [show i + 1 + j = i + (j + 1) by omega]
        exact h (j + 1) l' hj
      rw [rowsParts, html_append, html_rowParts i l (h 0 l rfl), hrest, List.map_cons,
        String.join_cons, String.toList_append]

theorem lineRow_ne (l : DocLine) : lineRow l ≠ "" := by
  intro h
  have hlen := congrArg (fun s => s.toList.length) h
  have hopen : ("<tr><td><b>" : String).toList.length = 11 := by decide +kernel
  have hempty : ("" : String).toList.length = 0 := rfl
  unfold lineRow at hlen
  simp only [String.toList_append, List.length_append] at hlen
  omega

theorem html_tableParts (value : DocumentText → List Char) (ls : List DocLine)
    (h : ∀ j l, ls[j]? = some l → value (.lineTitle j) = l.title.toList) :
    html escapeChar value (tableParts ls) =
      (linesTable (String.join (ls.map lineRow))).toList := by
  have hempty : String.join (ls.map lineRow) = "" ↔ ls = [] := by
    constructor
    · intro hjoin
      cases ls with
      | nil => rfl
      | cons l ls =>
          rw [List.map_cons, String.join_cons] at hjoin
          exact absurd (String.append_eq_empty_iff.mp hjoin).1 (lineRow_ne l)
    · rintro rfl
      rfl
  unfold tableParts linesTable
  by_cases hls : ls = []
  · rw [if_pos hls, if_pos (hempty.mpr hls)]
    rfl
  · rw [if_neg hls, if_neg (mt hempty.mp hls), html_append, html_append,
      html_rowsParts ls 0 fun j l hj => by rw [Nat.zero_add]; exact h j l hj]
    simp only [html_fixed, html_nil, String.toList_append, List.append_nil]
    simp only [List.append_assoc]

theorem html_addressParts (doc : PrintableDocument) (h : value .address = doc.address.toList) :
    html escapeChar value (addressParts doc) =
      (if doc.address = "" then "" else "<p>" ++ escapeHtml doc.address ++ "</p>").toList := by
  unfold addressParts
  split
  · rfl
  · simp only [html_fixed, html_slot, html_nil, String.toList_append]
    simp only [h, toList_escapeHtml, List.append_nil]
    simp only [List.append_assoc]

/-- A part that is left out, and its text with it. -/
theorem html_unless {c : Prop} [Decidable c] {text : String}
    (h : html escapeChar value ps = text.toList) :
    html escapeChar value (if c then [] else ps) = (if c then "" else text).toList := by
  split
  · rfl
  · exact h

/-- A label, an amount and the end of the row. -/
theorem html_amount (value : DocumentText → List Char) (label amount close : String) :
    html escapeChar value [fixed label, fixed amount, fixed close] =
      (label ++ amount ++ close).toList := by
  simp only [html_fixed, html_nil, String.toList_append]
  simp only [List.append_nil, List.append_assoc]

theorem html_couponParts (amount : String)
    (h : value .couponCode = (doc.couponCode.getD "").toList) :
    html escapeChar value [fixed "<p><span>কুপন ", .slot .couponCode, fixed "</span><b>−",
      fixed amount, fixed "</b></p>"] =
      ("<p><span>কুপন " ++ escapeHtml (doc.couponCode.getD "") ++ "</span><b>−" ++ amount ++
        "</b></p>").toList := by
  simp only [html_fixed, html_slot, html_nil, String.toList_append]
  simp only [h, toList_escapeHtml, List.append_nil]
  simp only [List.append_assoc]

theorem html_sumParts (doc : PrintableDocument)
    (h : value .couponCode = (doc.couponCode.getD "").toList) :
    html escapeChar value (sumParts doc) = (sumRows doc).toList := by
  have hcoupon := html_unless (c := isZero doc.discount)
    (html_couponParts (BnFormat.bnTaka doc.discount) h)
  have htax := html_unless (c := isZero doc.taxTotal) (html_amount value
    "<p><span>ভ্যাট/কর</span><b>" (BnFormat.bnTaka doc.taxTotal) "</b></p>")
  have hfee : html escapeChar value (if doc.kind = .receipt ∧ ¬isZero doc.gatewayFee then
      [fixed "<p><span>গেটওয়ে ফি</span><b>", fixed (BnFormat.bnTaka doc.gatewayFee),
        fixed "</b></p>"] else []) =
      (if doc.kind = .receipt ∧ ¬isZero doc.gatewayFee then "<p><span>গেটওয়ে ফি</span><b>" ++
        BnFormat.bnTaka doc.gatewayFee ++ "</b></p>" else "").toList := by
    split
    · exact html_amount _ _ _ _
    · rfl
  unfold sumParts sumRows
  rw [html_append, html_append, html_append, html_append, html_append, hcoupon, htax, hfee]
  simp only [html_amount, String.toList_append]
  simp only [List.append_assoc]

theorem html_reasonParts (h : value .reason = (doc.reason.getD "").toList) :
    html escapeChar value (reasonParts doc) =
      (escapeHtml (reasonText doc) ++ "। বিক্রি বাতিল, স্টক ফেরত।").toList := by
  unfold reasonParts reasonText
  split
  · have hplain : escapeHtml "ফেরত" = "ফেরত" := by decide +kernel
    rw [hplain]
    simp only [html_fixed, html_nil, String.toList_append, List.append_nil]
  · simp only [html_fixed, html_slot, html_nil, String.toList_append]
    simp only [h, toList_escapeHtml, List.append_nil]

theorem html_noteParts (doc : PrintableDocument)
    (hreason : value .reason = (doc.reason.getD "").toList)
    (hcredits : value .creditsDocNo = (doc.creditsDocNo.getD "").toList) :
    html escapeChar value (noteParts doc) = (note doc).toList := by
  have hinvoice : html escapeChar value [fixed " মূল ইনভয়েস ", .slot .creditsDocNo, fixed "।"] =
      (" মূল ইনভয়েস " ++ escapeHtml (doc.creditsDocNo.getD "") ++ "।").toList := by
    simp only [html_fixed, html_slot, html_nil, String.toList_append]
    simp only [hcredits, toList_escapeHtml, List.append_nil]
    simp only [List.append_assoc]
  have hnumber := html_unless (c := doc.creditsDocNo.getD "" = "") hinvoice
  have hloss := html_unless (c := isZero doc.courierLoss) (html_amount value
    " কুরিয়ার লস " (BnFormat.bnTaka (doc.courierLoss.getD 0)) " আলাদা খরচ।")
  unfold noteParts note
  cases doc.kind
  · simp only [html_fixed, html_nil, List.append_nil]
  · exact html_amount _ _ _ _
  · simp only [html_append, html_reasonParts hreason, hnumber, hloss, html_fixed, html_nil,
      String.toList_append]
    simp only [List.append_nil, List.append_assoc]

/-- The template of a paper, with its texts, is the page that is rendered. -/
theorem html_pieces (bnDateTime : Instant → String) (doc : PrintableDocument) :
    html escapeChar (fun x => (textOf bnDateTime doc x).toList) (pieces doc) =
      (renderDocumentHtml bnDateTime doc).toList := by
  have haddress := @html_addressParts (fun x => (textOf bnDateTime doc x).toList) doc rfl
  have htable := html_tableParts (fun x => (textOf bnDateTime doc x).toList) doc.lines
    fun j l hl => by simp only [textOf, hl, Option.elim_some]
  have hsum := @html_sumParts (fun x => (textOf bnDateTime doc x).toList) doc rfl
  have hnote := @html_noteParts (fun x => (textOf bnDateTime doc x).toList) doc rfl rfl
  unfold pieces headParts bodyParts shopParts renderDocumentHtml
  simp only [html_append, haddress, htable, hsum, hnote, String.toList_append, html_fixed,
    html_slot, html_nil]
  simp only [textOf, toList_escapeHtml, List.append_nil]
  simp only [List.append_assoc]

end page

/-! ### The template is safe -/

/-- Text that is no markup: what the formatters write. -/
def Plain (text : String) : Prop := ∀ c ∈ text.toList, c ≠ '<' ∧ c ≠ '&' ∧ c ≠ '\r'

/-- A literal is checked on its characters. -/
theorem Plain.lit {text : String} {cs : List Char} (htext : text = String.ofList cs)
    (h : (cs.all fun c => c != '<' && c != '&' && c != '\r') = true) : Plain text := by
  rw [Plain, htext, String.toList_ofList]
  simpa [and_assoc] using h

theorem Plain.append {a b : String} (ha : Plain a) (hb : Plain b) : Plain (a ++ b) := by
  intro c hc
  rw [String.toList_append] at hc
  rcases List.mem_append.mp hc with hc | hc
  · exact ha c hc
  · exact hb c hc

/-- Digits in Bangla are no markup, whatever else is none. -/
theorem plain_bnDigits {text : String} (h : Plain text) : Plain (bnDigits text) := by
  intro c hc
  rw [bnDigits, String.toList_map] at hc
  obtain ⟨d, hd, rfl⟩ := List.mem_map.mp hc
  by_cases hdigit : d.isDigit = true
  · rw [if_pos hdigit]
    obtain ⟨hlow, hhigh⟩ := ascii_digit_iff.mp (isDigit_iff.mp hdigit)
    obtain ⟨n, hn⟩ := Nat.exists_eq_add_of_le hlow
    have hlt : n < 10 := by omega
    obtain rfl : d = Char.ofNat (48 + n) := by rw [← hn, Char.ofNat_toNat]
    interval_cases n <;> decide
  · rw [if_neg hdigit]
    exact h d hd

theorem plain_taka (v : ℚ) : Plain (BnFormat.bnTaka v) := by
  obtain ⟨k, hk⟩ := BnFormat.exists_paisa v
  have hamount : Plain (String.ofList (BnFormat.amountText k)) := by
    intro c hc
    rw [String.toList_ofList] at hc
    rcases BnFormat.printed_amountText hc with hdigit | rfl | rfl
    · refine ⟨?_, ?_, ?_⟩ <;> rintro rfl <;> exact absurd hdigit (by decide)
    · decide
    · decide
  have hsign : Plain (if v < 0 then "−" else "") := by
    split <;> exact .lit rfl rfl
  have htaka : Plain "৳" := .lit rfl rfl
  rw [BnFormat.bnTaka, BnFormat.bnMoney_eq hk]
  exact htaka.append (hsign.append (plain_bnDigits hamount))

theorem plain_natural (n : ℕ) : Plain (toString n) := by
  intro c hc
  rw [BnFormat.toString_toList] at hc
  have hdigit : c.isDigit = true := Nat.isDigit_of_mem_toDigits (by omega) (by omega) hc
  refine ⟨?_, ?_, ?_⟩ <;> rintro rfl <;> exact absurd hdigit (by decide)

theorem plain_integer (n : ℤ) : Plain (toString n) := by
  have hminus : Plain "-" := .lit rfl rfl
  rw [Int.toString_eq_repr, Int.repr_eq_if]
  split
  · exact plain_natural n.toNat
  · exact hminus.append (plain_natural (-n).toNat)

theorem Plain.leaves {text : String} (h : Plain text) :
    LeadsTo (.text .data) text.toList (.text .data) := LeadsTo.text h

section safe

variable {ps : List Part} {doc : PrintableDocument}

/-- Markup after which text goes on. -/
theorem safe_lit (text : String) {cs : List Char} (htext : text = String.ofList cs)
    (hrun : (plainRun (.text .data) cs).map Prod.fst = some (.text .data))
    (hreturn : cs.contains '\r' = false) (hps : DataSafe ps) :
    DataSafe (fixed text :: ps) := .markup (.lit htext hrun hreturn) hps

theorem safe_plain {text : String} (h : Plain text) (hps : DataSafe ps) :
    DataSafe (fixed text :: ps) := .markup h.leaves hps

/-- A text, and the markup after it. -/
theorem safe_slot (x : DocumentText) (text : String) {c : Char} {cs : List Char}
    (htext : text = String.ofList (c :: cs)) (hc : c ≠ '\n')
    (hrun : (plainRun (.text .data) (c :: cs)).map Prod.fst = some (.text .data))
    (hreturn : (c :: cs).contains '\r' = false) (hps : DataSafe ps) :
    DataSafe (.slot x :: fixed text :: ps) :=
  .slot (.lit htext hc) (.lit htext hrun hreturn) hps

theorem safe_rowParts (i : ℕ) (l : DocLine) : DataSafe (rowParts i l) := by
  have hkind : Plain (if l.kind = .bundle then "প্যাকেজ" else "পণ্য") := by
    split <;> exact .lit rfl rfl
  refine safe_lit _ rfl rfl rfl ?_
  refine safe_slot _ _ rfl (by decide) rfl rfl ?_
  refine safe_plain hkind ?_
  refine safe_lit _ rfl rfl rfl ?_
  refine safe_plain (plain_bnDigits (plain_integer _)) ?_
  refine safe_lit _ rfl rfl rfl ?_
  refine safe_plain (plain_taka _) ?_
  refine safe_lit _ rfl rfl rfl ?_
  refine safe_plain (plain_taka _) ?_
  exact safe_lit _ rfl rfl rfl .nil

theorem safe_rowsParts (ls : List DocLine) (i : ℕ) :
    DataSafe (rowsParts i ls) := by
  induction ls generalizing i with
  | nil => exact .nil
  | cons l ls ih => exact (safe_rowParts i l).append (ih (i + 1))

theorem safe_tableParts (ls : List DocLine) :
    DataSafe (tableParts ls) := by
  unfold tableParts
  split
  · exact .nil
  · have hopen : DataSafe
        [fixed "<table><thead><tr><th>পণ্য</th><th class=\"num\">পরিমাণ</th>",
          fixed "<th class=\"num\">দাম</th>",
          fixed "<th class=\"num\">মোট</th></tr></thead><tbody>"] :=
      safe_lit _ rfl rfl rfl (safe_lit _ rfl rfl rfl
        (safe_lit _ rfl rfl rfl .nil))
    have hclose : DataSafe [fixed "</tbody></table>"] :=
      safe_lit _ rfl rfl rfl .nil
    exact (hopen.append (safe_rowsParts ls 0)).append hclose

theorem safe_addressParts (doc : PrintableDocument) : DataSafe (addressParts doc) := by
  unfold addressParts
  split
  · exact .nil
  · refine safe_lit _ rfl rfl rfl ?_
    exact safe_slot _ _ rfl (by decide) rfl rfl .nil

/-- A row of the sums that may be left out. -/
theorem safe_unless {c : Prop} [Decidable c] (h : DataSafe ps) :
    DataSafe (if c then [] else ps) := by
  split
  · exact .nil
  · exact h

theorem safe_sumParts (doc : PrintableDocument) : DataSafe (sumParts doc) := by
  have hshipping : Plain (if isZero doc.shippingFee then "ফ্রি" else
      BnFormat.bnTaka doc.shippingFee) := by
    split
    · exact .lit rfl rfl
    · exact plain_taka _
  have hend (amount : String) (h : Plain amount) : DataSafe
      [fixed amount, fixed "</b></p>"] :=
    safe_plain h (safe_lit _ rfl rfl rfl .nil)
  have hsubtotal := safe_lit "<p><span>সাবটোটাল</span><b>" rfl rfl rfl
    (hend _ (plain_taka doc.subtotal))
  have hcoupon := safe_unless (c := isZero doc.discount)
    (safe_lit "<p><span>কুপন " rfl rfl rfl
      (safe_slot .couponCode "</span><b>−" rfl (by decide) rfl rfl
        (hend _ (plain_taka doc.discount))))
  have hdelivery := safe_lit "<p><span>ডেলিভারি</span><b>" rfl rfl rfl
    (hend _ hshipping)
  have htax := safe_unless (c := isZero doc.taxTotal)
    (safe_lit "<p><span>ভ্যাট/কর</span><b>" rfl rfl rfl
      (hend _ (plain_taka doc.taxTotal)))
  have htotal := safe_lit "<p class=\"grand\"><span>মোট</span><b>" rfl rfl rfl (hend _ (plain_taka doc.total))
  have hfee : DataSafe (if doc.kind = .receipt ∧ ¬isZero doc.gatewayFee then
      [fixed "<p><span>গেটওয়ে ফি</span><b>", fixed (BnFormat.bnTaka doc.gatewayFee),
        fixed "</b></p>"] else []) := by
    split
    · exact safe_lit _ rfl rfl rfl (hend _ (plain_taka doc.gatewayFee))
    · exact .nil
  exact ((((hsubtotal.append hcoupon).append hdelivery).append htax).append htotal).append hfee

theorem safe_reasonParts : DataSafe (reasonParts doc) := by
  unfold reasonParts
  split
  · exact safe_lit _ rfl rfl rfl (safe_lit _ rfl rfl rfl .nil)
  · exact safe_slot _ _ rfl (by decide) rfl rfl .nil

set_option maxRecDepth 2000 in
theorem safe_noteParts (doc : PrintableDocument) : DataSafe (noteParts doc) := by
  unfold noteParts
  cases doc.kind with
  | invoice =>
      refine safe_plain ?_ .nil
      split <;> exact .lit rfl rfl
  | receipt =>
      refine safe_lit _ rfl rfl rfl (safe_plain (plain_taka _) ?_)
      exact safe_lit _ rfl rfl rfl .nil
  | creditNote =>
      have hcourier : Plain (if doc.reverseCourier then
          " কুরিয়ারে ওঠেনি — কুরিয়ার খরচও উল্টেছে।" else " কুরিয়ার খরচ থেকে যাচ্ছে।") := by
        split <;> exact .lit rfl rfl
      have hopen : DataSafe [fixed "কারণ: "] :=
        safe_lit _ rfl rfl rfl .nil
      have hcredits := safe_unless (c := doc.creditsDocNo.getD "" = "")
        (safe_lit " মূল ইনভয়েস " rfl rfl rfl
          (safe_slot .creditsDocNo "।" rfl (by decide) rfl rfl
            .nil))
      have hloss := safe_unless (c := isZero doc.courierLoss)
        (safe_lit " কুরিয়ার লস " rfl rfl rfl
          (safe_plain (plain_taka (doc.courierLoss.getD 0))
            (safe_lit " আলাদা খরচ।" rfl rfl rfl .nil)))
      exact (((hopen.append safe_reasonParts).append hcredits).append hloss).append
        (safe_plain hcourier .nil)

theorem plain_join {texts : List String} (h : ∀ t ∈ texts, Plain t) :
    Plain (String.join texts) := by
  intro c hc
  rw [String.toList_join] at hc
  obtain ⟨t, ht, hct⟩ := List.mem_flatMap.mp hc
  exact h t ht c hct

theorem plain_css : Plain css := by
  have hlines : ∀ parts ∈ cssLines, ∀ t ∈ parts, Plain t := by
    simp only [cssLines, List.forall_mem_cons, List.not_mem_nil, false_implies, implies_true,
      and_true]
    and_intros
    all_goals exact .lit rfl rfl
  have hbreak : Plain "\n" := .lit rfl rfl
  refine hbreak.append (plain_join fun t ht => ?_)
  obtain ⟨parts, hparts, rfl⟩ := List.mem_map.mp ht
  exact (plain_join (hlines parts hparts)).append hbreak

/-- The mode in which the title of the page is read, and the one of its style sheet. -/
def titleMode : Mode := .rcdata ['t', 'i', 't', 'l', 'e']

def styleMode : Mode := .rawtext ['s', 't', 'y', 'l', 'e']

theorem plain_title (kind : DocumentKind) : Plain (docTitle kind) := by
  cases kind <;> exact .lit rfl rfl

set_option maxRecDepth 2000 in
theorem safe_headParts (kind : DocumentKind) :
    Safe (.text .data) (headParts kind) (.text .data) ∧
      holes (.text .data) (headParts kind) = [(.docNo, titleMode)] := by
  have hopen : LeadsTo (.text .data)
      "<!doctype html>\n<html lang=\"bn\"><head><meta charset=\"utf-8\">".toList
      (.text .data) := .lit rfl rfl rfl
  have htitle : LeadsTo (.text .data)
      "<meta name=\"viewport\" content=\"width=device-width,initial-scale=1\">\n<title>".toList
      (.text titleMode) := .lit rfl rfl rfl
  have hkind : LeadsTo (.text titleMode) (docTitle kind).toList (.text titleMode) :=
    .text (plain_title kind)
  have hblank : LeadsTo (.text titleMode) " ".toList (.text titleMode) :=
    .lit rfl rfl rfl
  have hstyle : LeadsTo (.text titleMode) " · চলো</title><style>".toList
      (.text styleMode) := .lit rfl rfl rfl
  have hcss : LeadsTo (.text styleMode) css.toList (.text styleMode) := .text plain_css
  have hclose : LeadsTo (.text styleMode) "</style></head>\n".toList (.text .data) :=
    .lit rfl rfl rfl
  constructor
  · exact .markup hopen (.markup htitle (.markup hkind (.markup hblank (.slot (by decide)
      (.lit rfl (by decide)) hstyle (.markup hcss (.markup hclose (.nil _)))))))
  · unfold headParts fixed
    rw [holes_markup hopen, holes_markup htitle, holes_markup hkind, holes_markup hblank,
      holes_slot, holes_markup hstyle, holes_markup hcss, holes_markup hclose]
    rfl

theorem safe_shopParts (kind : DocumentKind) : DataSafe (shopParts kind) := by
  unfold shopParts
  refine safe_lit _ rfl rfl rfl ?_
  refine safe_lit _ rfl rfl rfl ?_
  refine safe_lit _ rfl rfl rfl ?_
  refine safe_lit _ rfl rfl rfl (safe_plain (plain_title kind) ?_)
  refine safe_lit _ rfl rfl rfl ?_
  refine safe_slot _ _ rfl (by decide) rfl rfl ?_
  refine safe_lit _ rfl rfl rfl ?_
  refine safe_slot _ _ rfl (by decide) rfl rfl ?_
  refine safe_slot _ _ rfl (by decide) rfl rfl ?_
  refine safe_slot _ _ rfl (by decide) rfl rfl ?_
  refine safe_slot _ _ rfl (by decide) rfl rfl ?_
  exact safe_slot _ _ rfl (by decide) rfl rfl .nil

theorem safe_bodyParts (doc : PrintableDocument) : DataSafe (bodyParts doc) := by
  have hlit (text : String) {cs : List Char} (htext : text = String.ofList cs)
      (hrun : (plainRun (.text .data) cs).map Prod.fst = some (.text .data))
      (hreturn : cs.contains '\r' = false) : DataSafe [fixed text] :=
    safe_lit text htext hrun hreturn .nil
  have hwho := (safe_shopParts doc.kind).append (safe_addressParts doc)
  have htable := (hwho.append (hlit "</div>\n" rfl rfl rfl)).append
    (safe_tableParts doc.lines)
  have hsum := (htable.append
    (hlit "\n<div class=\"sum\">" rfl rfl rfl)).append
      (safe_sumParts doc)
  have hnote := (hsum.append
    (hlit "</div>\n<p class=\"note\">" rfl rfl rfl)).append
      (safe_noteParts doc)
  exact hnote.append (hlit _ rfl rfl rfl)

theorem safe_pieces (doc : PrintableDocument) :
    Safe (.text .data) (pieces doc) (.text .data) :=
  (safe_headParts doc.kind).1.append (safe_bodyParts doc).safe

theorem holes_pieces (doc : PrintableDocument) : holes (.text .data) (pieces doc) =
    (.docNo, titleMode) :: (slots (bodyParts doc)).map fun x => (x, .data) := by
  rw [pieces, holes_append (safe_headParts doc.kind).1, (safe_headParts doc.kind).2,
    (safe_bodyParts doc).modes]
  rfl

end safe

/-! ### What two papers have in common -/

/-- Two papers that agree on everything but their texts, and on which texts are there. -/
structure SameShape (doc doc' : PrintableDocument) : Prop where
  kind : doc.kind = doc'.kind
  issuedAt : doc.issuedAt = doc'.issuedAt
  paymentMethod : doc.paymentMethod = doc'.paymentMethod
  lines : doc.lines.map (fun l => (l.kind, l.qty, l.unitPrice)) =
    doc'.lines.map (fun l => (l.kind, l.qty, l.unitPrice))
  subtotal : doc.subtotal = doc'.subtotal
  discount : doc.discount = doc'.discount
  shippingFee : doc.shippingFee = doc'.shippingFee
  taxTotal : doc.taxTotal = doc'.taxTotal
  total : doc.total = doc'.total
  gatewayFee : doc.gatewayFee = doc'.gatewayFee
  courierLoss : doc.courierLoss = doc'.courierLoss
  reverseCourier : doc.reverseCourier = doc'.reverseCourier
  address : doc.address = "" ↔ doc'.address = ""
  reason : doc.reason.getD "" = "" ↔ doc'.reason.getD "" = ""
  creditsDocNo : doc.creditsDocNo.getD "" = "" ↔ doc'.creditsDocNo.getD "" = ""

theorem rowsParts_congr (ls ls' : List DocLine) (i : ℕ)
    (h : ls.map (fun l => (l.kind, l.qty, l.unitPrice)) =
      ls'.map (fun l => (l.kind, l.qty, l.unitPrice))) :
    rowsParts i ls = rowsParts i ls' := by
  induction ls generalizing ls' i with
  | nil =>
      cases ls' with
      | nil => rfl
      | cons l' ls' => simp at h
  | cons l ls ih =>
      cases ls' with
      | nil => simp at h
      | cons l' ls' =>
          rw [List.map_cons, List.map_cons, List.cons.injEq, Prod.mk.injEq, Prod.mk.injEq] at h
          obtain ⟨⟨hkind, hqty, hprice⟩, hrest⟩ := h
          rw [rowsParts, rowsParts, ih ls' (i + 1) hrest, rowParts, rowParts, hkind, hqty, hprice]

theorem SameShape.pieces {doc doc' : PrintableDocument} (h : SameShape doc doc') :
    pieces doc = DocumentHtml.pieces doc' := by
  have hlines : tableParts doc.lines = tableParts doc'.lines := by
    have hempty : doc.lines = [] ↔ doc'.lines = [] := by
      rw [← List.map_eq_nil_iff, h.lines, List.map_eq_nil_iff]
    simp only [tableParts, hempty, rowsParts_congr _ _ 0 h.lines]
  have haddress : addressParts doc = addressParts doc' := by
    simp only [addressParts, h.address]
  have hsum : sumParts doc = sumParts doc' := by
    simp only [sumParts, h.subtotal, h.discount, h.shippingFee, h.taxTotal, h.total, h.gatewayFee,
      h.kind]
  have hnote : noteParts doc = noteParts doc' := by
    simp only [noteParts, reasonParts, h.kind, h.paymentMethod, h.total, h.reason, h.creditsDocNo,
      h.courierLoss, h.reverseCourier]
  simp only [DocumentHtml.pieces, bodyParts, h.kind, hlines, haddress, hsum, hnote]

/-! ### Papers cannot be injected -/

/-- The texts of the page's body, in order. -/
def printedTexts (doc : PrintableDocument) : List DocumentText :=
  [.docNo, .issuedAt, .orderNo, .paymentLabel, .customerName, .customerPhone] ++
  (if doc.address = "" then [] else [.address]) ++
  (List.range doc.lines.length).map .lineTitle ++
  (if isZero doc.discount then [] else [.couponCode]) ++
  (if doc.kind = .creditNote then
    (if doc.reason.getD "" = "" then [] else [.reason]) ++
    (if doc.creditsDocNo.getD "" = "" then [] else [.creditsDocNo])
  else [])

theorem slots_rowsParts (ls : List DocLine) (i : ℕ) :
    slots (rowsParts i ls) = (List.range' i ls.length).map .lineTitle := by
  induction ls generalizing i with
  | nil => rfl
  | cons l ls ih =>
      rw [rowsParts, slots_append, ih, List.length_cons, List.range'_succ]
      rfl

theorem slots_tableParts (ls : List DocLine) :
    slots (tableParts ls) = (List.range ls.length).map .lineTitle := by
  unfold tableParts
  split
  · next hempty => rw [hempty]; rfl
  · rw [slots_append, slots_append, slots_rowsParts, ← List.range_eq_range']
    exact List.append_nil _

theorem slots_sumParts (doc : PrintableDocument) :
    slots (sumParts doc) = if isZero doc.discount then [] else [.couponCode] := by
  have hamount (a b c : String) : slots [fixed a, fixed b, fixed c] = [] := rfl
  have hcoupon : slots (if isZero doc.discount then [] else [fixed "<p><span>কুপন ",
      .slot .couponCode, fixed "</span><b>−", fixed (BnFormat.bnTaka doc.discount),
      fixed "</b></p>"]) = if isZero doc.discount then [] else [.couponCode] := by
    split <;> rfl
  have htax : slots (if isZero doc.taxTotal then [] else [fixed "<p><span>ভ্যাট/কর</span><b>",
      fixed (BnFormat.bnTaka doc.taxTotal), fixed "</b></p>"]) = [] := by
    split <;> rfl
  have hfee : slots (if doc.kind = .receipt ∧ ¬isZero doc.gatewayFee then
      [fixed "<p><span>গেটওয়ে ফি</span><b>", fixed (BnFormat.bnTaka doc.gatewayFee),
        fixed "</b></p>"] else []) = [] := by
    split <;> rfl
  unfold sumParts
  rw [slots_append, slots_append, slots_append, slots_append, slots_append, hcoupon, htax, hfee]
  simp only [hamount, List.nil_append, List.append_nil]

theorem slots_noteParts (doc : PrintableDocument) :
    slots (noteParts doc) = if doc.kind = .creditNote then
      (if doc.reason.getD "" = "" then [] else [.reason]) ++
      (if doc.creditsDocNo.getD "" = "" then [] else [.creditsDocNo])
    else [] := by
  have hreason : slots (reasonParts doc) =
      if doc.reason.getD "" = "" then [] else [.reason] := by
    unfold reasonParts
    split <;> rfl
  have hloss : slots (if isZero doc.courierLoss then ([] : List Part) else
      [fixed " কুরিয়ার লস ", fixed (BnFormat.bnTaka (doc.courierLoss.getD 0)),
        fixed " আলাদা খরচ।"]) = [] := by
    split <;> rfl
  unfold noteParts
  cases doc.kind with
  | invoice => rfl
  | receipt => rfl
  | creditNote =>
      simp only [slots_append, hreason, hloss]
      rw [if_pos trivial, List.append_nil]
      refine (List.append_nil _).trans (congrArg _ ?_)
      split <;> rfl

theorem slots_bodyParts (doc : PrintableDocument) : slots (bodyParts doc) = printedTexts doc := by
  have haddress : slots (addressParts doc) = if doc.address = "" then [] else [.address] := by
    unfold addressParts
    split <;> rfl
  unfold bodyParts printedTexts
  simp only [slots_append, haddress, slots_tableParts, slots_sumParts, slots_noteParts]
  have hfixed (text : String) : slots [fixed text] = [] := rfl
  have hshop : slots (shopParts doc.kind) = [.docNo, .issuedAt, .orderNo, .paymentLabel,
      .customerName, .customerPhone] := rfl
  simp only [hfixed, hshop, List.append_nil]

/-- The tokens of a paper, with a hole for each of its texts. -/
def paper (doc : PrintableDocument) : List (Token ⊕ DocumentText × Mode) :=
  skeleton (.text .data) (pieces doc)

theorem tokens_paper (refs : CharRefs) (bnDateTime : Instant → String) (doc : PrintableDocument) :
    tokens refs (renderDocumentHtml bnDateTime doc).toList =
      (paper doc).flatMap (fill fun x => (textOf bnDateTime doc x).toList) := by
  rw [← html_pieces]
  exact tokens_of_safe escapes (safe_pieces doc)

/-- The texts of a paper are read back in their places, and nothing else depends on them. -/
structure NotInjected (refs : CharRefs) (bnDateTime : Instant → String) : Prop where
  reads : ∀ doc, tokens refs (renderDocumentHtml bnDateTime doc).toList =
    (paper doc).flatMap (fill fun x => (textOf bnDateTime doc x).toList)
  places : ∀ doc, (paper doc).filterMap Sum.getRight? =
    (.docNo, titleMode) :: (printedTexts doc).map fun x => (x, .data)
  same : ∀ doc doc', SameShape doc doc' → paper doc = paper doc'
  tags : ∀ doc doc', SameShape doc doc' →
    markup (tokens refs (renderDocumentHtml bnDateTime doc).toList) =
      markup (tokens refs (renderDocumentHtml bnDateTime doc').toList)

theorem document_notInjected (refs : CharRefs) (bnDateTime : Instant → String) :
    NotInjected refs bnDateTime := by
  have hsame (doc doc' : PrintableDocument) (h : SameShape doc doc') : paper doc = paper doc' := by
    rw [paper, paper, h.pieces]
  refine ⟨tokens_paper refs bnDateTime, fun doc => ?_, hsame, fun doc doc' h => ?_⟩
  · rw [← slots_bodyParts]
    exact holes_pieces doc
  · rw [tokens_paper, tokens_paper, hsame doc doc' h]
    exact markup_fill _ _ _

/-! ### Texts that are not read back as they were given -/

/-- The texts as they are given. -/
def givenText (bnDateTime : Instant → String) (doc : PrintableDocument) : DocumentText → String
  | .customerPhone => doc.customerPhone
  | x => textOf bnDateTime doc x

/-- A paper on which each text is read exactly as it was given. -/
def ReadsGiven (refs : CharRefs) (bnDateTime : Instant → String) (doc : PrintableDocument) : Prop :=
  tokens refs (renderDocumentHtml bnDateTime doc).toList =
    (paper doc).flatMap fun hole => match hole with
      | .inl t => [t]
      | .inr (x, _) => (givenText bnDateTime doc x).toList.map .char

/-- Lists put together from parts differ where the parts do, if the difference has one sign. -/
theorem flatMap_ne {α β : Type*} (p : β → Bool) {l : List α} {f g : α → List β}
    (hle : ∀ a ∈ l, (f a).countP p ≤ (g a).countP p)
    (hlt : ∃ a ∈ l, (f a).countP p < (g a).countP p) : l.flatMap f ≠ l.flatMap g := by
  intro h
  have hcount := congrArg (List.countP p) h
  rw [List.countP_flatMap, List.countP_flatMap] at hcount
  exact absurd hcount (List.sum_lt_sum _ _ hle hlt).ne

def samplePaper : PrintableDocument where
  kind := .invoice
  docNo := "INV-1"
  orderNo := "CLO-1"
  issuedAt := 0
  paymentLabel := ""
  paymentMethod := "COD"
  customerName := ""
  customerPhone := ""
  address := ""
  lines := []
  subtotal := 0
  couponCode := none
  discount := 0
  shippingFee := 0
  taxTotal := 0
  total := 0
  gatewayFee := 0
  reason := none
  courierLoss := none
  reverseCourier := false

/-- A text is read with no more of a kind of characters than it was given with. -/
theorem countP_fill {p : Token → Bool}
    (hshown : ∀ (m : Mode) c, p (.char (m.shown c)) = true → p (.char c) = true)
    (hbreak : p (.char '\n') = true → p (.char '\r') = true) (m : Mode) (text : List Char) :
    ((newlines text).map fun c => Token.char (m.shown c)).countP p ≤
      (text.map Token.char).countP p := by
  rw [List.countP_map, List.countP_map]
  exact (List.countP_mono_left fun c _ => hshown m c).trans (countP_newlinesFrom hbreak false)

theorem not_readsGiven {refs : CharRefs} {bnDateTime : Instant → String} {doc : PrintableDocument}
    (p : Token → Bool)
    (hshown : ∀ (m : Mode) c, p (.char (m.shown c)) = true → p (.char c) = true)
    (hbreak : p (.char '\n') = true → p (.char '\r') = true)
    (hphone : ((localPhone doc.customerPhone).toList.map Token.char).countP p ≤
      (doc.customerPhone.toList.map Token.char).countP p)
    (hlt : ∃ x m, (x, m) ∈ (DocumentText.docNo, titleMode) ::
        (printedTexts doc).map (fun x => (x, Mode.data)) ∧
      ((newlines (textOf bnDateTime doc x).toList).map fun c => Token.char (m.shown c)).countP p <
        ((givenText bnDateTime doc x).toList.map Token.char).countP p) :
    ¬ReadsGiven refs bnDateTime doc := by
  obtain ⟨x, m, hmem, hlt⟩ := hlt
  rw [← (document_notInjected refs bnDateTime).places] at hmem
  obtain ⟨hole, hhole, hx⟩ := List.mem_filterMap.mp hmem
  rw [Sum.getRight?_eq_some_iff] at hx
  subst hx
  rw [ReadsGiven, tokens_paper]
  refine flatMap_ne p (fun hole _ => ?_) ⟨_, hhole, hlt⟩
  rcases hole with t | ⟨y, m'⟩
  · exact le_rfl
  · refine (countP_fill hshown hbreak m' _).trans ?_
    by_cases hy : y = .customerPhone
    · rw [hy]
      exact hphone
    · have hgiven : givenText bnDateTime doc y = textOf bnDateTime doc y := by
        cases y <;> first | rfl | exact absurd rfl hy
      show _ ≤ ((givenText bnDateTime doc y).toList.map Token.char).countP p
      rw [hgiven]

/--
A phone number is printed in its local form, a line break of two characters is one, and U+0000
is replaced in the title of the page.
-/
theorem texts_not_given :
    (¬ReadsGiven default (fun _ => "") { samplePaper with customerPhone := "+8801711111111" }) ∧
    (¬ReadsGiven default (fun _ => "") { samplePaper with customerName := "a\x0d\nb" }) ∧
    ¬ReadsGiven default (fun _ => "") { samplePaper with docNo := "\x00" } := by
  refine ⟨?_, ?_, ?_⟩
  · refine not_readsGiven (fun _ => true) (fun _ _ _ => rfl) (fun _ => rfl) (by decide +kernel)
      ⟨.customerPhone, .data, by decide +kernel, by decide +kernel⟩
  · refine not_readsGiven (fun _ => true) (fun _ _ _ => rfl) (fun _ => rfl) (by decide +kernel)
      ⟨.customerName, .data, by decide +kernel, by decide +kernel⟩
  · refine not_readsGiven (· = .char '\x00') (fun m c h => ?_) (by decide) (by decide +kernel)
      ⟨.docNo, titleMode, by decide +kernel, by decide +kernel⟩
    rw [decide_eq_true_eq, Token.char.injEq] at h ⊢
    exact shown_eq_null h

end DocumentHtml

end BookHouse
