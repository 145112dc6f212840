/-
What a signed body is held to.

Two bodies with one signature hash to one text.  Where the signed keys have no `=` and no `&`
and the signed values no `&`, the text is cut in one way, so the bodies sign the same fields
with the same values.  Where they do, a body can move its keys and values around the
separators and sign other fields than those that are acted on.
-/
import BookHouse.Lib.Delimited
import BookHouse.Payments.Validation

namespace BookHouse

open Delimited

/-- The fields that the callbacks and the IPN act on. -/
def actedOn : List String := ["tran_id", "val_id", "status", "amount"]

/-- The keys that a body is signed over, as they are hashed. -/
def signedKeys (payload : Body) : List String :=
  sortKeys ((splitKeys (payload.get "verify_key")).filter (fun key =>
    key ≠ "" && key ≠ "__proto__") ++ ["store_passwd"]).dedup

section

variable (host : Host)

def signedValue (payload : Body) (pw key : String) : String :=
  if key = "store_passwd" then host.md5 pw else payload.get key

/-- The text that is hashed. -/
def signedText (payload : Body) (pw : String) : String :=
  "&".intercalate ((signedKeys payload).map fun k => k ++ "=" ++ signedValue host payload pw k)

end

/-- Lower-case hexadecimal digits. -/
def IsHex (s : String) : Prop := ∀ c ∈ s.toList, c.isDigit = true ∨ ('a' ≤ c ∧ c ≤ 'f')

/-- The signed keys and values keep out of the separators. -/
structure Separate (payload : Body) : Prop where
  keys : ∀ k ∈ signedKeys payload, '=' ∉ k.toList ∧ '&' ∉ k.toList
  values : ∀ k ∈ signedKeys payload, k ≠ "store_passwd" → '&' ∉ (payload.get k).toList

section accepted

variable {host : Host} {b₁ b₂ : Body} {pw : String}

/-- A body is accepted for the digest of its text. -/
theorem accepted_digest {b : Body} (h : verifySslSignature host b pw = .ok true) :
    host.toLowerCase (b.get "verify_sign") = host.md5 (signedText host b pw) := by
  unfold verifySslSignature computeSslSignature at h
  dsimp only at h
  split at h
  · cases h
  · rename_i hkey
    split at hkey
    · cases hkey
    obtain rfl := Option.some.inj hkey
    split at h
    · cases h
    split at h
    · cases h
    · have hsign := of_decide_eq_true (Except.ok.inj h)
      exact hsign

/-- Bodies with one signature hash to one text. -/
theorem signedText_eq
    (hinj : host.md5 (signedText host b₁ pw) = host.md5 (signedText host b₂ pw) →
      signedText host b₁ pw = signedText host b₂ pw)
    (h₁ : verifySslSignature host b₁ pw = .ok true)
    (h₂ : verifySslSignature host b₂ pw = .ok true)
    (hsign : b₁.get "verify_sign" = b₂.get "verify_sign") :
    signedText host b₁ pw = signedText host b₂ pw := by
  have hd₁ := accepted_digest h₁
  rw [hsign] at hd₁
  exact hinj (hd₁.symm.trans (accepted_digest h₂))

/-! ### Cutting the text -/

theorem signedValue_separate {b : Body} (hhex : IsHex (host.md5 pw)) (hb : Separate b)
    {k : String} (hk : k ∈ signedKeys b) : '&' ∉ (signedValue host b pw k).toList := by
  unfold signedValue
  split
  · intro hmem
    exact absurd (hhex _ hmem) (by decide)
  · rename_i hown
    exact hb.values k hk hown

/-- The signed keys with their values, in the order they are hashed. -/
def entries (host : Host) (b : Body) (pw : String) : List (List Char) :=
  (signedKeys b).map fun k => k.toList ++ '=' :: (signedValue host b pw k).toList

theorem signedText_entries (b : Body) :
    (signedText host b pw).toList = ['&'].intercalate (entries host b pw) := by
  have htoList : ∀ k : String, (k ++ "=" ++ signedValue host b pw k).toList =
      k.toList ++ '=' :: (signedValue host b pw k).toList := by
    intro k
    simp
  unfold signedText entries
  rw [String.toList_intercalate, List.map_map]
  congr 1
  exact List.map_congr_left fun k _ => htoList k

theorem entries_ne_nil (b : Body) : entries host b pw ≠ [] := by
  have hmem : "store_passwd" ∈ signedKeys b := by
    unfold signedKeys sortKeys
    rw [(List.perm_insertionSort _ _).mem_iff, List.mem_dedup]
    exact List.mem_append_right _ (List.mem_singleton_self _)
  exact List.ne_nil_of_mem (List.mem_map_of_mem hmem)

theorem entries_separate {b : Body} (hhex : IsHex (host.md5 pw)) (hb : Separate b) :
    ∀ e ∈ entries host b pw, '&' ∉ e := by
  intro e he
  obtain ⟨k, hk, rfl⟩ := List.mem_map.mp he
  intro hmem
  rcases List.mem_append.mp hmem with hmem | hmem
  · exact (hb.keys k hk).2 hmem
  rcases List.mem_cons.mp hmem with heq | hmem
  · exact absurd heq (by decide)
  · exact signedValue_separate hhex hb hk hmem

/-- The same text has the same entries. -/
theorem entries_eq (hhex : IsHex (host.md5 pw)) (hb₁ : Separate b₁) (hb₂ : Separate b₂)
    (h : signedText host b₁ pw = signedText host b₂ pw) :
    entries host b₁ pw = entries host b₂ pw := by
  have hcut : ∀ {b : Body}, Separate b →
      (signedText host b pw).toList.splitOn '&' = entries host b pw := by
    intro b hb
    rw [signedText_entries]
    exact List.splitOn_intercalate '&' (entries_separate hhex hb) (entries_ne_nil _)
  rw [← hcut hb₁, h, hcut hb₂]

/-- A field that one body signs the other signs with the same value. -/
theorem signedValue_eq (hhex : IsHex (host.md5 pw)) (hb₁ : Separate b₁) (hb₂ : Separate b₂)
    (h : signedText host b₁ pw = signedText host b₂ pw) {k : String} (hk : k ∈ signedKeys b₁) :
    signedValue host b₁ pw k = signedValue host b₂ pw k := by
  have hentry : k.toList ++ '=' :: (signedValue host b₁ pw k).toList ∈ entries host b₁ pw :=
    List.mem_map_of_mem hk
  rw [entries_eq hhex hb₁ hb₂ h] at hentry
  obtain ⟨k', hk', heq⟩ := List.mem_map.mp hentry
  have hequals : ∀ rest : List Char, Stopped (fun c => ¬ c ≠ '=') ('=' :: rest) :=
    fun rest => Stopped.cons (by simp)
  obtain ⟨hkey, hrest⟩ := split_run k'.toList k.toList
    (fun c hc => ne_of_mem_of_not_mem hc (hb₂.keys k' hk').1)
    (fun c hc => ne_of_mem_of_not_mem hc (hb₁.keys k hk).1) _ _ (hequals _) (hequals _) heq
  obtain rfl := String.toList_inj.mp hkey
  exact (String.toList_inj.mp (List.cons.inj hrest).2).symm

end accepted

/-- **The fields that are acted on are held to, when keys and values keep out of the
separators.** -/
theorem signature_protects (host : Host) (pw : String) (b₁ b₂ : Body)
    (hhex : IsHex (host.md5 pw))
    (hinj : host.md5 (signedText host b₁ pw) = host.md5 (signedText host b₂ pw) →
      signedText host b₁ pw = signedText host b₂ pw)
    (h₁ : verifySslSignature host b₁ pw = .ok true)
    (hsigned : ∀ k ∈ actedOn, k ∈ signedKeys b₁)
    (h₂ : verifySslSignature host b₂ pw = .ok true)
    (hsign : b₁.get "verify_sign" = b₂.get "verify_sign")
    (hb₁ : Separate b₁) (hb₂ : Separate b₂) : ∀ k ∈ actedOn, b₁.get k = b₂.get k := by
  have htext := signedText_eq hinj h₁ h₂ hsign
  have hown : ∀ k ∈ actedOn, k ≠ "store_passwd" := by decide
  intro k hk
  have hvalue := signedValue_eq hhex hb₁ hb₂ htext (hsigned k hk)
  rwa [signedValue, signedValue, if_neg (hown k hk), if_neg (hown k hk)] at hvalue

/-! ### A body that moves the separators -/

/-- The digests of a test store's password and of the one text it signs here. -/
def testHost : Host where
  md5 s := if s = "testbox" then "657e3a67772f5d0a73c73df116be5411"
    else "7bf3269f447a0702decdbec056457c2d"
  toUpperCase s := s
  toLowerCase s := s
  number _ := none

theorem testHost_hex : IsHex (testHost.md5 "testbox") := by
  have hall : (testHost.md5 "testbox").toList.all
      (fun c => c.isDigit = true ∨ 'a' ≤ c ∧ c ≤ 'f') = true := by decide +kernel
  exact fun c hc => of_decide_eq_true (List.all_eq_true.mp hall c hc)

/-- A body as the gateway signs it. -/
def gatewayBody (verifyKey : String) : Body :=
  [("tran_id", "T1"), ("val_id", "V1"), ("status", "VALID"), ("amount", "100.00"),
    ("verify_key", verifyKey), ("verify_sign", "7bf3269f447a0702decdbec056457c2d")]

/-- The same text from two keys, with other fields beside it. -/
def regroupedBody : Body :=
  [("tran_id", "T2"), ("val_id", "V2"), ("status", "FAILED"), ("amount", "1.00"),
    ("amount=100.00&status", "VALID"), ("tran_id=T1&val_id", "V1"),
    ("verify_key", "amount=100.00&status,tran_id=T1&val_id"),
    ("verify_sign", "7bf3269f447a0702decdbec056457c2d")]

theorem signature_protects_spaced :
    (gatewayBody "amount,status,tran_id,val_id").get "amount" =
      (gatewayBody "val_id, tran_id, status, amount").get "amount" := by
  refine signature_protects testHost "testbox" _ _ testHost_hex (fun _ => ?_) ?_ ?_ ?_ rfl ?_ ?_
    "amount" (by decide)
  · decide +kernel
  · decide +kernel
  · decide +kernel
  · decide +kernel
  · exact ⟨by decide +kernel, by decide +kernel⟩
  · exact ⟨by decide +kernel, by decide +kernel⟩

/-- **Another body is accepted with the signature of a gateway's, and agrees on no field that is
acted on.** -/
theorem signature_regrouped : ¬ ∀ (host : Host) (pw : String) (b₁ b₂ : Body),
    IsHex (host.md5 pw) →
    (host.md5 (signedText host b₁ pw) = host.md5 (signedText host b₂ pw) →
      signedText host b₁ pw = signedText host b₂ pw) →
    verifySslSignature host b₁ pw = .ok true → (∀ k ∈ actedOn, k ∈ signedKeys b₁) →
    verifySslSignature host b₂ pw = .ok true → b₁.get "verify_sign" = b₂.get "verify_sign" →
    ∀ k ∈ actedOn, b₁.get k = b₂.get k := by
  intro hall
  have hsame := hall testHost "testbox" (gatewayBody "amount,status,tran_id,val_id")
    regroupedBody testHost_hex (fun _ => by decide +kernel) (by decide +kernel) (by decide +kernel)
    (by decide +kernel) rfl
  exact absurd (hsame "tran_id" List.mem_cons_self) (by decide +kernel)

end BookHouse
