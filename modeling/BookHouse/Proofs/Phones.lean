/-
One spelling for each phone number: `normalizeBdPhone` and `localPhone` of
`common/utils/text.ts`, and the CHECK `customers_phone_e164`.

What the function reads of a text is the list of its digits, whatever the script
(`normalizeBdPhone_eq`).  The two prefixes are stripped once each, in one order, and neither
touches a number that starts with neither; a subscriber's number starts with 1.
-/
import BookHouse.Auth.Accounts
import BookHouse.Notifications.Producers
import Mathlib.Tactic.IntervalCases

namespace BookHouse

/-! ### The digits of a text -/

/-- The digit a character stands for, ASCII or Bangla. -/
def readDigit (c : Char) : Option Char :=
  if '0' ≤ c ∧ c ≤ '9' then some c
  else if '০' ≤ c ∧ c ≤ '৯' then some (Char.ofNat (c.toNat - '০'.toNat + '0'.toNat))
  else none

def digitsIn (text : String) : List Char := text.toList.filterMap readDigit

/-- `^\+8801[3-9][0-9]{8}$` -/
def PhoneE164 (x : String) : Prop :=
  ∃ c rest, '3' ≤ c ∧ c ≤ '9' ∧ rest.length = 8 ∧ (∀ d ∈ rest, '0' ≤ d ∧ d ≤ '9') ∧
    x = "+8801" ++ String.ofList (c :: rest)

theorem ascii_digit_iff {c : Char} : ('0' ≤ c ∧ c ≤ '9') ↔ 48 ≤ c.toNat ∧ c.toNat ≤ 57 := by
  rw [Char.le_def, Char.le_def, UInt32.le_iff_toNat_le, UInt32.le_iff_toNat_le]
  rfl

theorem bangla_digit_iff {c : Char} :
    ('০' ≤ c ∧ c ≤ '৯') ↔ 0x09E6 ≤ c.toNat ∧ c.toNat ≤ 0x09EF := by
  rw [Char.le_def, Char.le_def, UInt32.le_iff_toNat_le, UInt32.le_iff_toNat_le]
  rfl

theorem isDigit_iff {c : Char} : c.isDigit = true ↔ '0' ≤ c ∧ c ≤ '9' := by
  simp [Char.isDigit, Char.le_def]

/-- A Bangla digit is one of ten characters. -/
theorem asciiDigit_isDigit {c : Char} (h : '০' ≤ c ∧ c ≤ '৯') : (asciiDigit c).isDigit = true := by
  obtain ⟨hlow, hhigh⟩ := bangla_digit_iff.mp h
  obtain ⟨n, hn⟩ := Nat.exists_eq_add_of_le hlow
  have hc : c = Char.ofNat (0x09E6 + n) := by rw [← hn, Char.ofNat_toNat]
  have hlt : n < 10 := by omega
  rw [hc]
  interval_cases n <;> rfl

/-- What the function keeps of a character. -/
theorem readDigit_eq (c : Char) :
    readDigit c = if (asciiDigit c).isDigit then some (asciiDigit c) else none := by
  unfold readDigit
  by_cases hascii : '0' ≤ c ∧ c ≤ '9'
  · have hnot : ¬(0x09E6 ≤ c.toNat ∧ c.toNat ≤ 0x09EF) := by
      have := ascii_digit_iff.mp hascii
      omega
    have hself : asciiDigit c = c := if_neg hnot
    rw [if_pos hascii, hself, if_pos (isDigit_iff.mpr hascii)]
  · rw [if_neg hascii]
    by_cases hbangla : '০' ≤ c ∧ c ≤ '৯'
    · rw [if_pos hbangla, if_pos (asciiDigit_isDigit hbangla), asciiDigit,
        if_pos (bangla_digit_iff.mp hbangla)]
      rfl
    · have hself : asciiDigit c = c := if_neg fun h => hbangla (bangla_digit_iff.mpr h)
      rw [if_neg hbangla, hself, if_neg fun h => hascii (isDigit_iff.mp h)]

theorem digits_eq (text : String) :
    (text.toList.map asciiDigit).filter Char.isDigit = digitsIn text := by
  unfold digitsIn
  induction text.toList with
  | nil => rfl
  | cons c rest ih =>
      rw [List.map_cons, List.filterMap_cons, readDigit_eq, List.filter_cons, ih]
      split <;> simp_all

/-- A mobile number without its prefixes. -/
def Subscriber (d : List Char) : Prop :=
  d.length = 10 ∧ d.head? = some '1' ∧ (d[1]?).any (fun c => '3' ≤ c) = true

instance (d : List Char) : Decidable (Subscriber d) :=
  inferInstanceAs (Decidable (_ ∧ _ ∧ _))

def stripPrefixes (digits : List Char) : List Char :=
  dropStart ['0'] (dropStart ['8', '8', '0'] digits)

/-- **Only the digits of a text count.** -/
theorem normalizeBdPhone_eq (input : String) :
    normalizeBdPhone input = if Subscriber (stripPrefixes (digitsIn input)) then
      some ("+880" ++ String.ofList (stripPrefixes (digitsIn input))) else none := by
  rw [← digits_eq]
  rfl

theorem readDigit_isDigit {c d : Char} (h : readDigit c = some d) : '0' ≤ d ∧ d ≤ '9' := by
  rw [readDigit_eq] at h
  split at h
  · rename_i hdigit
    rw [← Option.some.inj h]
    exact isDigit_iff.mp hdigit
  · cases h

theorem mem_digitsIn {text : String} {d : Char} (h : d ∈ digitsIn text) : '0' ≤ d ∧ d ≤ '9' := by
  obtain ⟨c, -, hc⟩ := List.mem_filterMap.mp h
  exact readDigit_isDigit hc

/-- Digits are read as they are. -/
theorem digitsIn_ofList {l : List Char} (h : ∀ d ∈ l, '0' ≤ d ∧ d ≤ '9') :
    digitsIn (String.ofList l) = l := by
  unfold digitsIn
  rw [String.toList_ofList]
  induction l with
  | nil => rfl
  | cons d rest ih =>
      rw [List.filterMap_cons, readDigit, if_pos (h d List.mem_cons_self),
        ih fun x hx => h x (List.mem_cons_of_mem _ hx)]

theorem digitsIn_append (a b : String) : digitsIn (a ++ b) = digitsIn a ++ digitsIn b := by
  simp [digitsIn, String.toList_append]

/-! ### The prefixes -/

theorem dropStart_sublist (p d : List Char) : List.Sublist (dropStart p d) d := by
  unfold dropStart
  split
  · exact List.drop_sublist _ _
  · exact List.Sublist.refl d

theorem dropStart_append (p d : List Char) : dropStart p (p ++ d) = d := by
  rw [dropStart, if_pos (List.isPrefixOf_iff_prefix.mpr (List.prefix_append p d)),
    List.drop_left]

theorem dropStart_of_not {p d : List Char} (h : ¬p <+: d) : dropStart p d = d := by
  rw [dropStart, if_neg fun hc => h (List.isPrefixOf_iff_prefix.mp hc)]

/-- The ways to write a number. -/
def spellings (number : List Char) : List (List Char) :=
  ["880".toList ++ number, "0".toList ++ number, "8800".toList ++ number, number]

/-- **Each prefix is stripped, and nothing of the number.** -/
theorem stripPrefixes_spelling {number digits : List Char} (h0 : ¬"0".toList <+: number)
    (h880 : ¬"880".toList <+: number) (h : digits ∈ spellings number) :
    stripPrefixes digits = number := by
  simp only [spellings, List.mem_cons, List.not_mem_nil, or_false] at h
  have hnumber : dropStart ['0'] number = number := dropStart_of_not h0
  unfold stripPrefixes
  rcases h with rfl | rfl | rfl | rfl
  · rw [show "880".toList = ['8', '8', '0'] from rfl, dropStart_append, hnumber]
  · have hnot : ¬['8', '8', '0'] <+: "0".toList ++ number := by
      rintro ⟨rest, hrest⟩
      cases hrest
    rw [dropStart_of_not hnot, show "0".toList = ['0'] from rfl, dropStart_append]
  · have hsplit : "8800".toList ++ number = ['8', '8', '0'] ++ (['0'] ++ number) := rfl
    rw [hsplit, dropStart_append, dropStart_append]
  · rw [show ['8', '8', '0'] = "880".toList from rfl, dropStart_of_not h880, hnumber]

/-! ### The canonical spelling -/

variable {d : List Char} {x : String}

theorem Subscriber.starts (h : Subscriber d) : ¬"0".toList <+: d ∧ ¬"880".toList <+: d := by
  constructor
  all_goals
    rintro ⟨rest, rfl⟩
    have hone := h.2.1
    simp at hone

/-- A number that is one is what the CHECK lets in after `+880`. -/
theorem phoneE164_of_subscriber (hd : ∀ c ∈ d, '0' ≤ c ∧ c ≤ '9') (h : Subscriber d) :
    PhoneE164 ("+880" ++ String.ofList d) := by
  obtain ⟨hlen, hone, hthree⟩ := h
  match d, hlen, hone, hthree with
  | one :: c :: rest, hlen, hone, hthree =>
      obtain rfl : one = '1' := by simpa using hone
      refine ⟨c, rest, by simpa using hthree, (hd c (by simp)).2, by simpa using hlen,
        fun x hx => hd x (by simp [hx]), ?_⟩
      rw [String.ext_iff]
      simp

theorem PhoneE164.subscriber (h : PhoneE164 x) :
    ∃ d, Subscriber d ∧ (∀ c ∈ d, '0' ≤ c ∧ c ≤ '9') ∧ x = "+880" ++ String.ofList d := by
  obtain ⟨c, rest, hlow, hhigh, hlen, hdigits, rfl⟩ := h
  refine ⟨'1' :: c :: rest, ⟨by simp [hlen], rfl, by simpa using hlow⟩, fun x hx => ?_, ?_⟩
  · rcases List.mem_cons.mp hx with rfl | hx
    · decide
    · rcases List.mem_cons.mp hx with rfl | hx
      · have hzero : '0' ≤ '3' := by decide
        exact ⟨Char.le_trans hzero hlow, hhigh⟩
      · exact hdigits x hx
  · rw [String.ext_iff]
    simp

/-- Any spelling of a subscriber's number gives its canonical one. -/
theorem normalizeBdPhone_of_spelling {input : String} (h : Subscriber d)
    (hinput : digitsIn input ∈ spellings d) :
    normalizeBdPhone input = some ("+880" ++ String.ofList d) := by
  rw [normalizeBdPhone_eq, stripPrefixes_spelling h.starts.1 h.starts.2 hinput, if_pos h]

theorem normalizeBdPhone_some {input : String} (h : normalizeBdPhone input = some x) :
    PhoneE164 x := by
  rw [normalizeBdPhone_eq] at h
  split at h
  · rename_i hsub
    rw [← Option.some.inj h]
    have hsublist : List.Sublist (stripPrefixes (digitsIn input)) (digitsIn input) :=
      (dropStart_sublist _ _).trans (dropStart_sublist _ _)
    exact phoneE164_of_subscriber (fun c hc => mem_digitsIn (hsublist.subset hc)) hsub
  · cases h

/-- **The canonical spelling stands for itself**, and so does the local one for it. -/
theorem PhoneE164.normalize (h : PhoneE164 x) :
    normalizeBdPhone x = some x ∧ normalizeBdPhone (localPhone x) = some x := by
  obtain ⟨d, hsub, hdigits, rfl⟩ := h.subscriber
  have hread := digitsIn_ofList hdigits
  constructor
  · refine normalizeBdPhone_of_spelling hsub ?_
    rw [digitsIn_append, hread]
    simp [spellings, digitsIn, readDigit]
  · have hlocal : localPhone ("+880" ++ String.ofList d) = "0" ++ String.ofList d := by
      simp [localPhone, String.toList_append]
    refine normalizeBdPhone_of_spelling hsub ?_
    rw [hlocal, digitsIn_append, hread]
    simp [spellings, digitsIn, readDigit]

/-- What canonical phones owe the texts they come from. -/
structure CanonicalPhones : Prop where
  canonical : ∀ input x, normalizeBdPhone input = some x → PhoneE164 x
  idempotent : ∀ input x, normalizeBdPhone input = some x → normalizeBdPhone x = some x
  printed : ∀ input x, normalizeBdPhone input = some x → normalizeBdPhone (localPhone x) = some x
  /-- Neither the other characters nor the script count. -/
  digits : ∀ a b, digitsIn a = digitsIn b → normalizeBdPhone a = normalizeBdPhone b
  /-- A number that starts with neither prefix, as a subscriber's does. -/
  prefixes : ∀ number, ¬"0".toList <+: number → ¬"880".toList <+: number → ∀ a b,
    digitsIn a ∈ spellings number → digitsIn b ∈ spellings number →
      normalizeBdPhone a = normalizeBdPhone b
  /-- Rows whose phones are different and pass the CHECK stand for different numbers. -/
  rows : ∀ customers : List Customer, (customers.map (·.phone)).Nodup →
    (∀ c ∈ customers, PhoneE164 c.phone) →
      customers.Pairwise fun a b => normalizeBdPhone a.phone ≠ normalizeBdPhone b.phone

/-- **Phone normalisation is canonical.** -/
theorem phones_canonical : CanonicalPhones where
  canonical _ _ h := normalizeBdPhone_some h
  idempotent _ _ h := (normalizeBdPhone_some h).normalize.1
  printed _ _ h := (normalizeBdPhone_some h).normalize.2
  digits a b h := by rw [normalizeBdPhone_eq, normalizeBdPhone_eq, h]
  prefixes number h0 h880 a b ha hb := by
    rw [normalizeBdPhone_eq, normalizeBdPhone_eq, stripPrefixes_spelling h0 h880 ha,
      stripPrefixes_spelling h0 h880 hb]
  rows customers hnd hcheck := by
    rw [List.Nodup, List.pairwise_map] at hnd
    refine hnd.imp_of_mem fun {a b} ha hb hne heq => hne ?_
    rw [(hcheck a ha).normalize.1, (hcheck b hb).normalize.1] at heq
    exact Option.some.inj heq

end BookHouse
